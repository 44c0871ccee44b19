/-
# Empyrean.Api.CacheAge — how old what the API serves from its caches can be

`GET /nodes`, `GET /readings/latest` and the account of every authenticated request come from
a read-through cache.  The invalidations that follow a commit are best effort: `cache_delete`
and `invalidate_user_cache` swallow a failing Redis, and a reader that was overtaken puts the
older value back.  What remains then is the time to live, and the time between a reader's
query and its `SETEX`.

* `snapshots`, `accounts` — the cached queries with their time to live.
* `nodes_current`, `latest_current` — what has been in the tables for 300 and 60 seconds is
  in the answer.
* `refused_in_time` — an account that has been inactive for 30 seconds is refused, whatever
  the token and whatever was lost.
-/
import Empyrean.Auth.UserCache
import Empyrean.Fleet.Snapshots
import Empyrean.Theory.ReadThrough

namespace Empyrean.Api.CacheAge

set_option autoImplicit false

open Empyrean.Auth (Db secondUs)
open Empyrean.Auth.UserCache (CachedUser Inactive Lookup serialiseUserForCache)
open Empyrean.Fleet (CacheKey Node)
open Empyrean.Fleet.Snapshots (Tables Payload newest latestFromReading)
open Empyrean.Ingest (SensorReading)
open Empyrean.Theory.PyNumeral (Text)
open Empyrean.Theory.ReadThrough Empyrean.Theory.Runs

/-! ## The sources -/

/-- `_NODES_CACHE_TTL`, `_LATEST_CACHE_TTL` -/
def snapshotTtl : CacheKey → Int
  | .nodesAll => 300 * secondUs
  | .readingsLatest => 60 * secondUs

/-- `list_nodes` and `latest`. -/
def snapshots : Source Tables CacheKey Payload where
  query k tables := some (tables.query k)
  ttl := snapshotTtl
  ttl_pos := fun k => by cases k <;> decide

/-- `_get_user_cached`; an account that is not there is not stored. -/
def accounts : Source Db Nat CachedUser where
  query user db := (db.users user).map (serialiseUserForCache user)
  ttl _ := 30 * secondUs
  ttl_pos := fun _ => by decide

/-! ## `newest` -/

section Newest

variable {id : Text}

/-- The scan only moves to later readings of the node, and passes none of them by. -/
theorem newest_scan (readings : List (SensorReading Text)) (best : Option (SensorReading Text)) :
    (∀ b ∈ best, ∃ r, readings.foldl (fun best r => if r.node = id ∧ ∀ b ∈ best, b.time < r.time then some r else best) best =
        some r ∧ b.time ≤ r.time) ∧
      ∀ b ∈ readings, b.node = id →
        ∃ r, readings.foldl (fun best r => if r.node = id ∧ ∀ b ∈ best, b.time < r.time then some r else best) best =
          some r ∧ b.time ≤ r.time := by
  induction readings generalizing best with
  | nil => exact ⟨fun b held => ⟨b, held, le_refl _⟩, fun b member => by cases member⟩
  | cons first rest ih =>
      rw [List.foldl_cons]
      by_cases later : first.node = id ∧ ∀ b ∈ best, b.time < first.time
      · rw [if_pos later]
        obtain ⟨r, found, after⟩ := (ih (some first)).1 first rfl
        refine ⟨fun b held => ⟨r, found, (later.2 b held).le.trans after⟩, fun b member here => ?_⟩
        rcases List.mem_cons.mp member with rfl | member
        · exact ⟨r, found, after⟩
        · exact (ih (some first)).2 b member here
      · rw [if_neg later]
        refine ⟨(ih best).1, fun b member here => ?_⟩
        rcases List.mem_cons.mp member with rfl | member
        · -- It is not later than the best one so far.
          obtain ⟨held, isBest, notLater⟩ : ∃ held ∈ best, b.time ≤ held.time := by
            simpa [here] using later
          obtain ⟨r, found, after⟩ := (ih best).1 held isBest
          exact ⟨r, found, notLater.trans after⟩
        · exact (ih best).2 b member here

theorem newest_later {readings : List (SensorReading Text)} {r : SensorReading Text}
    (member : r ∈ readings) (here : r.node = id) :
    ∃ shown, newest readings id = some shown ∧ r.time ≤ shown.time :=
  (newest_scan readings none).2 r member here

end Newest

/-! ## A reader is overtaken -/

/-- Nothing is cached and nobody reads. -/
def opened {σ κ ν : Type} (store : σ) : World σ κ ν Nat where
  clock := 0
  store := store
  cache := fun _ => none
  readers := fun _ => .idle
  earlier := []

/-- Reader 0 queries the store, which then becomes `next`, and stores what it has found; no
deletion comes.  400 seconds later it reads again, and ten seconds after that reader 1 is due. -/
def overtaken {σ κ : Type} (k : κ) (next : σ) : List (Act σ κ Nat) :=
  [.get 0 k true, .load 0, .commit next, .set 0 true, .tick 400000000, .get 0 k true, .load 0,
    .set 0 true, .tick 10000000]

/-- Where that leads. -/
def afterwards {σ κ ν : Type} [DecidableEq κ] (src : Source σ κ ν) (k : κ) (store next : σ) :
    World σ κ ν Nat :=
  (run (guard (step src) (Prompt secondUs)) (opened store) (overtaken k next)).getD (opened store)

def registered : Tables := ⟨Theory.Rounding.roundSingle, Fleet.DeviceConfig.fleet, []⟩

/-- The node is deactivated. -/
def deactivated : Tables :=
  registered.updateRow "n1".toList
    (Fleet.DeviceConfig.deactivate.write (Fleet.DeviceConfig.registration.node 0))

def account : Db := Auth.UserCache.oneAccount.db

theorem cold_opened {σ κ ν : Type} (store : σ) : (opened store : World σ κ ν Nat).Cold :=
  ⟨fun _ => rfl, fun _ => rfl⟩

/-- Only the first version was replaced, at 0. -/
theorem eq_store_of_recent {σ κ ν : Type} {w : World σ κ ν Nat} {store s : σ} {t : Int}
    (earlier : w.earlier = [(0, store)]) (late : 0 < t) (recent : w.Recent t s) : s = w.store := by
  refine recent.resolve_right ?_
  rintro ⟨replaced, listed, later⟩
  obtain ⟨rfl, _⟩ : replaced = 0 ∧ s = store := by simpa [earlier] using listed
  omega

theorem reach_snapshots (k : CacheKey) :
    Reach (step snapshots) (Prompt secondUs) World.Cold
      (afterwards snapshots k registered deactivated) :=
  reach_of_run (Prompt secondUs) (overtaken k deactivated) (opened registered) _
    (.init (cold_opened _))
    (by cases k <;> rfl)

theorem steady_snapshots {k : CacheKey} {tables : Tables} {t : Int} (late : 0 < t)
    (recent : (afterwards snapshots k registered deactivated).Recent t tables) :
    tables = deactivated := by
  cases k
  · exact eq_store_of_recent rfl late recent
  · exact eq_store_of_recent rfl late recent

theorem reach_accounts : Reach (step accounts) (Prompt secondUs) World.Cold
    (afterwards accounts 7 account (Auth.deleteProfile account 7).1) :=
  reach_of_run (Prompt secondUs) (overtaken 7 (Auth.deleteProfile account 7).1) (opened account) _
    (.init (cold_opened _)) rfl

section Answers

variable {π : Type} [DecidableEq π] {hold : Int}

/-- **`GET /nodes`.**  A row that has been the node's row for 300 seconds, and for as long as
a reader takes, is the row that is served; likewise where there has been none. -/
theorem nodes_current {w : World Tables CacheKey Payload π}
    (reached : Reach (step snapshots) (Prompt hold) World.Cold w) {a : Act Tables CacheKey π}
    (prompt : Prompt hold w a) {payload : Payload}
    (answered : answer w a = some (.nodesAll, some payload)) {id : Text} {row : Option Node}
    (steady : ∀ tables, w.Recent (w.clock - (300 * secondUs + hold)) tables →
      tables.nodes id = row) :
    ∃ rows, payload = .nodes rows ∧ rows id = row := by
  obtain ⟨tables, recent, queried⟩ := answer_recent reached prompt answered
  exact ⟨tables.nodes, (Option.some.inj queried).symm, steady tables recent⟩

theorem nodes_current_overtaken : ∃ payload,
    answer (afterwards snapshots .nodesAll registered deactivated) (.get 1 .nodesAll true) =
        some (.nodesAll, some payload) ∧
      ∃ rows, payload = .nodes rows ∧ rows "n1".toList = deactivated.nodes "n1".toList :=
  ⟨deactivated.query .nodesAll, rfl,
    nodes_current (reach_snapshots .nodesAll)
      (a := .get 1 .nodesAll true) trivial rfl fun tables recent => by
      rw [steady_snapshots (by decide) recent]⟩

/-- **`GET /readings/latest`.**  A node that has been inactive for 60 seconds, and for as long
as a reader takes, is not listed; one that has been active and has had a reading is listed,
with that reading or a later one. -/
theorem latest_current {w : World Tables CacheKey Payload π}
    (reached : Reach (step snapshots) (Prompt hold) World.Cold w) {a : Act Tables CacheKey π}
    (prompt : Prompt hold w a) {payload : Payload}
    (answered : answer w a = some (.readingsLatest, some payload)) :
    ∃ rows, payload = .readings rows ∧ ∀ id : Text,
      ((∀ tables, w.Recent (w.clock - (60 * secondUs + hold)) tables →
        (tables.nodes id).any (·.isActive) = false) →
        rows id = none) ∧
      ∀ r : SensorReading Text, r.node = id →
        (∀ tables, w.Recent (w.clock - (60 * secondUs + hold)) tables →
          (tables.nodes id).any (·.isActive) = true ∧ r ∈ tables.readings) →
        ∃ shown, rows id = some shown ∧ r.time ≤ shown.time := by
  obtain ⟨tables, recent, queried⟩ := answer_recent reached prompt answered
  refine ⟨_, (Option.some.inj queried).symm, fun id => ⟨fun gone => ?_, fun r here stored => ?_⟩⟩
  · exact if_neg (by simp [gone tables recent])
  · obtain ⟨active, member⟩ := stored tables recent
    obtain ⟨shown, found, later⟩ := newest_later member here
    exact ⟨latestFromReading shown, by rw [if_pos active, found, Option.map_some], later⟩

theorem latest_current_overtaken : ∃ payload,
    answer (afterwards snapshots .readingsLatest registered deactivated)
      (.get 1 .readingsLatest true) =
        some (.readingsLatest, some payload) ∧
      ∃ rows, payload = .readings rows ∧ rows "n1".toList = none := by
  refine ⟨deactivated.query .readingsLatest, rfl, ?_⟩
  obtain ⟨rows, served, current⟩ :=
    latest_current (reach_snapshots .readingsLatest) (a := .get 1 .readingsLatest true) trivial rfl
  refine ⟨rows, served, (current "n1".toList).1 fun tables recent => ?_⟩
  rw [steady_snapshots (by decide) recent]
  rfl

/-- **Authentication.**  Where an account has been inactive for 30 seconds, and for as long as a
reader takes, a request that looks it up is refused, whatever its token. -/
theorem refused_in_time {w : World Db Nat CachedUser π}
    (reached : Reach (step accounts) (Prompt hold) World.Cold w) {a : Act Db Nat π}
    (prompt : Prompt hold w a) {user : Nat} {account : Option CachedUser}
    (answered : answer w a = some (user, account))
    (inactive : ∀ db, w.Recent (w.clock - (30 * secondUs + hold)) db → Inactive db user)
    (gone : List Nat) : Lookup.Refused ⟨user, gone, account.map (·.isActive)⟩ := by
  obtain ⟨db, recent, queried⟩ := answer_recent reached prompt answered
  refine Lookup.refused_of_inactive fun accepted => ?_
  obtain ⟨cached, found, active⟩ := Option.map_eq_some_iff.mp accepted
  obtain ⟨row, stored, rfl⟩ := Option.map_eq_some_iff.mp (queried.trans found)
  have isInactive : row.isActive = false := inactive db recent row stored
  simp [serialiseUserForCache, isInactive] at active

theorem refused_in_time_overtaken :
    answer (afterwards accounts 7 account (Auth.deleteProfile account 7).1) (.get 1 7 true) =
      some (7, some ⟨7, false, none⟩) ∧
      Lookup.Refused ⟨7, [7], some false⟩ := by
  have answered :
      answer (afterwards accounts 7 account (Auth.deleteProfile account 7).1) (.get 1 7 true) =
      some (7, some ⟨7, false, none⟩) := rfl
  have once : (afterwards accounts 7 account (Auth.deleteProfile account 7).1).earlier =
      [(0, account)] := rfl
  refine ⟨answered, refused_in_time reach_accounts (a := .get 1 7 true) trivial answered (fun db recent => ?_) [7]⟩
  rw [eq_store_of_recent once (by decide) recent]
  exact Auth.UserCache.inactive_deleteProfile account 7

end Answers

end Empyrean.Api.CacheAge
