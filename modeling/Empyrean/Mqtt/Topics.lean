/-
# Empyrean.Mqtt.Topics — who receives what is published

Devices and backend share one broker.  A device publishes on `air/node/{id}/reading` and
`…/status`, the backend subscribes to these with a wildcard for the id and to `air/alerts`,
and publishes a node's configuration on `air/node/{id}/config`.  An id that is no level of a
topic name could turn one of these into another.

* `Topic.filter` — `_READING_TOPIC`, `_STATUS_TOPIC`, `_ALERTS_TOPIC`.
* `received_iff` — what the broker sends to the backend is an alert, or has the topic of an
  id and a kind that `_TOPIC_RE` reads back, or has an empty id.
* `config_private` — a configuration goes to the node it is for: no other node's
  subscription receives it, and the backend does not receive its own.
-/
import Empyrean.Fleet.DeviceConfig
import Empyrean.Mqtt.OnMessage
import Empyrean.Mqtt.Subscriptions
import Empyrean.Theory.TopicFilter

namespace Empyrean.Mqtt.Topics

set_option autoImplicit false

open Empyrean.Fleet (nodeIdChar nodeIdSafe)
open Empyrean.Fleet.DeviceConfig (configTopic topicOf)
open Empyrean.Mqtt.Drain (Kind)
open Empyrean.Mqtt.OnMessage (alertsTopic topicMatch)
open Empyrean.Mqtt.Subscriptions (Topic topics)
open Empyrean.Theory.PyNumeral (Text)
open Empyrean.Theory.TopicFilter

/-! ## The topics -/

def air : Text := "air".toList

def node : Text := "node".toList

/-- `_READING_TOPIC`, `_STATUS_TOPIC`, `_ALERTS_TOPIC` -/
def Topic.filter : Topic → Text
  | .reading => "air/node/+/reading".toList
  | .status => "air/node/+/status".toList
  | .alerts => "air/alerts".toList

/-- The last level of a device's topics. -/
def level : Kind → Text
  | .reading => "reading".toList
  | .status => "status".toList
  | .alert => "alert".toList

/-- `air/node/{node_id}/{kind}` -/
def deviceTopic (nodeId : Text) (kind : Kind) : Text :=
  "air/node/".toList ++ (nodeId ++ '/' :: level kind)

theorem prefix_eq : "air/node/".toList = air ++ '/' :: (node ++ ['/']) := by decide

theorem clean_air : '/' ∉ air := by decide

theorem clean_node : '/' ∉ node := by decide

theorem clean_level (kind : Kind) : '/' ∉ level kind := by cases kind <;> decide

theorem under_eq (rest : Text) :
    "air/node/".toList ++ rest = air ++ '/' :: (node ++ '/' :: rest) := by
  rw [prefix_eq, List.append_assoc, List.cons_append, List.append_assoc]
  rfl

theorem levels_under {nodeId : Text} (rest : Text) (clean : '/' ∉ nodeId) :
    levels ("air/node/".toList ++ (nodeId ++ '/' :: rest)) =
      air :: node :: nodeId :: levels rest := by
  rw [under_eq, levels_cons clean_air, levels_cons clean_node, levels_cons clean]

theorem levels_deviceTopic {nodeId : Text} (clean : '/' ∉ nodeId) (kind : Kind) :
    levels (deviceTopic nodeId kind) = [air, node, nodeId, level kind] := by
  have below := levels_under (level kind) clean
  rwa [levels_single (clean_level kind)] at below

/-! ## `_TOPIC_RE` -/

theorem takeWhile_append_slash {nodeId : Text} (rest : Text) (clean : '/' ∉ nodeId) :
    (nodeId ++ '/' :: rest).takeWhile (· ≠ '/') = nodeId ∧
      (nodeId ++ '/' :: rest).dropWhile (· ≠ '/') = '/' :: rest := by
  have plain : ∀ c ∈ nodeId, decide (c ≠ '/') = true := fun c member =>
    decide_eq_true fun same => clean (same ▸ member)
  constructor
  · rw [List.takeWhile_append_of_pos plain]
    simp
  · rw [List.dropWhile_append_of_pos plain]
    simp

theorem isPrefixOf?_eq_some {p text rest : Text} : List.isPrefixOf? p text = some rest ↔
    text = p ++ rest := by
  induction p generalizing text with
  | nil => simp [List.isPrefixOf?]
  | cons c p ih =>
      cases text with
      | nil => simp [List.isPrefixOf?]
      | cons d text =>
          by_cases same : c = d
          · simp [List.isPrefixOf?, same, ih]
          · simp [List.isPrefixOf?, same, Ne.symm same]

theorem reading_end : '/' :: level .reading = "/reading".toList := by decide

theorem status_end : '/' :: level .status = "/status".toList := by decide

theorem ends_differ : '/' :: level .status ≠ "/reading".toList := by decide

theorem topicMatch_deviceTopic {nodeId : Text} (present : nodeId ≠ []) (clean : '/' ∉ nodeId)
    {kind : Kind} (device : kind = .reading ∨ kind = .status) :
    topicMatch (deviceTopic nodeId kind) = some (nodeId, kind) := by
  obtain ⟨taken, dropped⟩ := takeWhile_append_slash (level kind) clean
  have stripped : List.isPrefixOf? "air/node/".toList (deviceTopic nodeId kind) =
      some (nodeId ++ '/' :: level kind) :=
    isPrefixOf?_eq_some.mpr rfl
  simp only [topicMatch, stripped, taken, dropped, if_neg present]
  rcases device with rfl | rfl
  · exact if_pos reading_end
  · rw [if_neg ends_differ, if_pos status_end]

/-- **`_TOPIC_RE` reads back exactly what a device's topic is written from.** -/
theorem topicMatch_iff {topic nodeId : Text} {kind : Kind} :
    topicMatch topic = some (nodeId, kind) ↔
      topic = deviceTopic nodeId kind ∧ nodeId ≠ [] ∧ '/' ∉ nodeId ∧
        (kind = .reading ∨ kind = .status) := by
  constructor
  · intro matched
    unfold topicMatch at matched
    split at matched
    · cases matched
    · rename_i rest stripped
      have whole : rest.takeWhile (· ≠ '/') ++ rest.dropWhile (· ≠ '/') = rest :=
        List.takeWhile_append_dropWhile
      have clean : '/' ∉ rest.takeWhile (· ≠ '/') :=
        fun inside => by simpa using List.mem_takeWhile_imp inside
      have written : ∀ kind, rest.dropWhile (· ≠ '/') = '/' :: level kind →
          topic = deviceTopic (rest.takeWhile (· ≠ '/')) kind := by
        intro kind ends
        have path := isPrefixOf?_eq_some.mp stripped
        rwa [← whole, ends] at path
      dsimp only at matched
      split at matched
      · cases matched
      · rename_i present
        split at matched
        · rename_i ends
          cases matched
          exact ⟨written .reading (ends.trans reading_end.symm), present, clean, Or.inl rfl⟩
        · split at matched
          · rename_i ends
            cases matched
            exact ⟨written .status (ends.trans status_end.symm), present, clean, Or.inr rfl⟩
          · cases matched
  · rintro ⟨rfl, present, clean, device⟩
    exact topicMatch_deviceTopic present clean device

/-! ## What the broker delivers -/

theorem delivers_device {kind : Kind} (topic : Text) {sub : Topic}
    (parsed : parse (Topic.filter sub) = [.exact air, .exact node, .plus, .exact (level kind)]) :
    delivers (Topic.filter sub) topic = true ↔
      ∃ nodeId, '/' ∉ nodeId ∧ topic = deviceTopic nodeId kind := by
  rw [delivers_iff parsed, parsed]
  simp only [matches_exact_cons, matches_plus_cons, matches_nil]
  constructor
  · rintro ⟨_, path, _, rfl, nodeId, _, rfl, _, rfl, rfl⟩
    have member : nodeId ∈ levels topic := by simp [path]
    have clean : '/' ∉ nodeId := clean_of_mem_levels member
    exact ⟨nodeId, clean, levels_injective (path.trans (levels_deviceTopic clean kind).symm)⟩
  · rintro ⟨nodeId, clean, rfl⟩
    exact ⟨_, levels_deviceTopic clean kind, _, rfl, nodeId, _, rfl, _, rfl, rfl⟩

theorem parse_reading : parse (Topic.filter .reading) =
    [.exact air, .exact node, .plus, .exact (level .reading)] := by decide

theorem parse_status : parse (Topic.filter .status) =
    [.exact air, .exact node, .plus, .exact (level .status)] := by decide

theorem parse_alerts :
    parse (Topic.filter .alerts) = [.exact air, .exact "alerts".toList] := by decide

theorem delivers_alerts (topic : Text) : delivers (Topic.filter .alerts) topic = true ↔
    topic = alertsTopic := by
  have path : levels alertsTopic = [air, "alerts".toList] := by decide
  rw [delivers_iff parse_alerts, parse_alerts]
  simp only [matches_exact_cons, matches_nil]
  constructor
  · rintro ⟨_, same, _, rfl, rfl⟩
    exact levels_injective (same.trans path.symm)
  · rintro rfl
    exact ⟨_, path, _, rfl, rfl⟩

/-- **What the backend receives**, for any topic name: the alerts, the topics that `_TOPIC_RE`
reads, and those of an empty id, which it drops. -/
theorem received_iff (topic : Text) :
    (∃ sub ∈ topics, delivers (Topic.filter sub) topic = true) ↔
      topic = alertsTopic ∨ (topicMatch topic).isSome = true ∨
        topic = deviceTopic [] .reading ∨ topic = deviceTopic [] .status := by
  have device : ∀ kind, kind = .reading ∨ kind = .status →
      ((∃ nodeId, '/' ∉ nodeId ∧ topic = deviceTopic nodeId kind) ↔
        (∃ nodeId, topicMatch topic = some (nodeId, kind)) ∨ topic = deviceTopic [] kind) := by
    intro kind isDevice
    constructor
    · rintro ⟨nodeId, clean, written⟩
      by_cases present : nodeId = []
      · exact Or.inr (present ▸ written)
      · exact Or.inl ⟨nodeId, topicMatch_iff.mpr ⟨written, present, clean, isDevice⟩⟩
    · rintro (⟨nodeId, matched⟩ | written)
      · obtain ⟨written, _, clean, _⟩ := topicMatch_iff.mp matched
        exact ⟨nodeId, clean, written⟩
      · exact ⟨[], List.not_mem_nil, written⟩
  have subscribed : (∃ sub ∈ topics, delivers (Topic.filter sub) topic = true) ↔
      delivers (Topic.filter .reading) topic = true ∨ delivers (Topic.filter .status) topic = true ∨
        delivers (Topic.filter .alerts) topic = true := by
    simp [topics]
  have read : (topicMatch topic).isSome = true ↔
      (∃ nodeId, topicMatch topic = some (nodeId, .reading)) ∨
        ∃ nodeId, topicMatch topic = some (nodeId, .status) := by
    rw [Option.isSome_iff_exists]
    constructor
    · rintro ⟨⟨nodeId, kind⟩, matched⟩
      rcases (topicMatch_iff.mp matched).2.2.2 with rfl | rfl
      · exact Or.inl ⟨nodeId, matched⟩
      · exact Or.inr ⟨nodeId, matched⟩
    · rintro (⟨nodeId, matched⟩ | ⟨nodeId, matched⟩)
      · exact ⟨_, matched⟩
      · exact ⟨_, matched⟩
  rw [subscribed, delivers_device topic parse_reading, delivers_device topic parse_status,
    delivers_alerts, device .reading (Or.inl rfl), device .status (Or.inr rfl), read]
  constructor
  · rintro ((matched | empty) | (matched | empty) | alert)
    · exact Or.inr (Or.inl (Or.inl matched))
    · exact Or.inr (Or.inr (Or.inl empty))
    · exact Or.inr (Or.inl (Or.inr matched))
    · exact Or.inr (Or.inr (Or.inr empty))
    · exact Or.inl alert
  · rintro (alert | (matched | matched) | empty | empty)
    · exact Or.inr (Or.inr alert)
    · exact Or.inl (Or.inl matched)
    · exact Or.inr (Or.inl (Or.inl matched))
    · exact Or.inl (Or.inr empty)
    · exact Or.inr (Or.inl (Or.inr empty))

/-! ## Configurations -/

/-- `_NODE_ID_RE` has neither a separator nor a wildcard among its characters. -/
theorem plain_of_safe {nodeId : Text} (safe : nodeIdSafe nodeId = true) :
    '/' ∉ nodeId ∧ '+' ∉ nodeId ∧ '#' ∉ nodeId := by
  have chars : ∀ c ∈ nodeId, nodeIdChar c = true :=
    List.all_eq_true.mp ((Bool.and_eq_true _ _ ▸ safe).2)
  have outside : nodeIdChar '/' = false ∧ nodeIdChar '+' = false ∧
      nodeIdChar '#' = false := by decide
  refine ⟨fun inside => ?_, fun inside => ?_, fun inside => ?_⟩
  · exact Bool.false_ne_true (outside.1.symm.trans (chars _ inside))
  · exact Bool.false_ne_true (outside.2.1.symm.trans (chars _ inside))
  · exact Bool.false_ne_true (outside.2.2.symm.trans (chars _ inside))

theorem config_end : "/config".toList = '/' :: "config".toList := by decide

theorem clean_config : '/' ∉ "config".toList := by decide

theorem topicOf_eq (nodeId : Text) :
    topicOf nodeId = "air/node/".toList ++ (nodeId ++ '/' :: "config".toList) := by
  have path := List.append_assoc "air/node/".toList nodeId "/config".toList
  rwa [config_end] at path

theorem levels_topicOf {nodeId : Text} (clean : '/' ∉ nodeId) :
    levels (topicOf nodeId) = [air, node, nodeId, "config".toList] := by
  rw [topicOf_eq, levels_under _ clean, levels_single clean_config]

theorem wildcards_fixed : ('+' ∉ "air/node/".toList ∧ '#' ∉ "air/node/".toList) ∧
    ('+' ∉ '/' :: "config".toList ∧ '#' ∉ '/' :: "config".toList) := by decide

theorem other_kinds :
    level .reading ≠ "config".toList ∧ level .status ≠ "config".toList := by decide

theorem alerts_shape : levels alertsTopic = [air, "alerts".toList] := by decide

theorem unsubscribed {nodeId : Text} (clean : '/' ∉ nodeId) (sub : Topic) :
    delivers (Topic.filter sub) (topicOf nodeId) = false := by
  have path := levels_topicOf clean
  have apart : ∀ {kind}, level kind ≠ "config".toList → ∀ other, '/' ∉ other →
      topicOf nodeId ≠ deviceTopic other kind := by
    intro kind differs other otherClean same
    rw [same, levels_deviceTopic otherClean] at path
    simp only [List.cons.injEq, and_true, true_and] at path
    exact differs path.2
  rw [Bool.eq_false_iff]
  intro delivered
  cases sub with
  | reading =>
      obtain ⟨other, otherClean, same⟩ := (delivers_device _ parse_reading).mp delivered
      exact apart other_kinds.1 other otherClean same
  | status =>
      obtain ⟨other, otherClean, same⟩ := (delivers_device _ parse_status).mp delivered
      exact apart other_kinds.2 other otherClean same
  | alerts =>
      rw [(delivers_alerts _).mp delivered, alerts_shape] at path
      exact absurd (congrArg List.length path) (by simp)

theorem parse_safe {own : Text} (safe : nodeIdSafe own = true) : Level.parse own = .exact own := by
  obtain ⟨_, noPlus, noHash⟩ := plain_of_safe safe
  exact parse_exact (fun same => noPlus (same ▸ List.mem_singleton_self _))
    (fun same => noHash (same ▸ List.mem_singleton_self _))

theorem parse_fixed : Level.parse air = .exact air ∧ Level.parse node = .exact node := by decide

/-- **A configuration is private.**  The topic that `config_topic` builds has the four levels
it is meant to have and no wildcard; no subscription of the backend takes it, and a
subscription of a device below its own id, whatever follows, takes it only if it is the
device it is for. -/
theorem config_private {nodeId topic : Text} (built : configTopic nodeId = .ok topic) :
    levels topic = [air, node, nodeId, "config".toList] ∧ ('+' ∉ topic ∧ '#' ∉ topic) ∧
      (∀ sub ∈ topics, delivers (Topic.filter sub) topic = false) ∧
      ∀ own rest : Text, nodeIdSafe own = true →
        delivers ("air/node/".toList ++ (own ++ '/' :: rest)) topic = true → own = nodeId := by
  unfold configTopic at built
  split at built
  · rename_i safe
    cases built
    obtain ⟨clean, noPlus, noHash⟩ := plain_of_safe safe
    have path := levels_topicOf clean
    refine ⟨path, ?_, fun sub _ => unsubscribed clean sub, ?_⟩
    · obtain ⟨⟨plusBefore, hashBefore⟩, plusAfter, hashAfter⟩ := wildcards_fixed
      rw [topicOf_eq]
      constructor
      · simp only [List.mem_append, plusBefore, noPlus, plusAfter, or_self, not_false_eq_true]
      · simp only [List.mem_append, hashBefore, noHash, hashAfter, or_self, not_false_eq_true]
    · intro own rest ownSafe delivered
      have parsed : parse ("air/node/".toList ++ (own ++ '/' :: rest)) =
          .exact air :: .exact node :: .exact own :: parse rest := by
        rw [parse, levels_under rest (plain_of_safe ownSafe).1]
        simp only [List.map_cons, parse_fixed.1, parse_fixed.2, parse_safe ownSafe]
        rfl
      rw [delivers_iff parsed, parsed, path] at delivered
      simp only [matches_exact_cons] at delivered
      obtain ⟨_, first, _, rfl, _, rfl, _⟩ := delivered
      simp only [List.cons.injEq] at first
      exact first.2.2.1.symm
  · cases built

theorem config_private_n1 :
    ∃ topic, configTopic "n1".toList = .ok topic ∧
      (∀ sub ∈ topics, delivers (Topic.filter sub) topic = false) ∧
      ∀ own rest : Text, nodeIdSafe own = true →
        delivers ("air/node/".toList ++ (own ++ '/' :: rest)) topic = true → own = "n1".toList := by
  have built : configTopic "n1".toList = .ok (topicOf "n1".toList) := if_pos (by decide)
  obtain ⟨_, _, unheard, only⟩ := config_private built
  exact ⟨_, built, unheard, only⟩

end Empyrean.Mqtt.Topics
