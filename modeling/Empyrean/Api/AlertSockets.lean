/-
# Empyrean.Api.AlertSockets — the sockets of `/ws/alerts` and their re-authentication

A socket is authenticated before it is accepted, and from then on its handler waits for
frames, never longer than what is left of fifteen minutes since the last authentication.
Only a frame that carries a token which passes the checks of the handshake starts a new
window; every other frame finds the old one still running.  Every way out of the loop
passes the `finally` that takes the socket out of the connection manager.

* `World` — clocks, tokens, the blocklist and the accounts, each with its whole history.
* `handshake`, `received`, `step` — one handler for each socket, one manager for all.
* `received_cases` — what a frame does to the window.
* `reauth_window` — a waiting handler has authenticated at most fifteen minutes ago, and an
  ended one has left no socket behind, in every run.

Neither a handshake nor the processing of a frame takes time, and `asyncio.wait_for` honours
its timeout: the clock moves only while every handler waits, and no further than the first
timeout.
-/
import Empyrean.Auth.AccessToken
import Mathlib.Data.Finset.Basic
import Mathlib.Data.Finset.SDiff

namespace Empyrean.Api.AlertSockets

set_option autoImplicit false

open Empyrean.Auth.AccessToken
open Empyrean.Theory.PyNumeral (Text isSpace)

/-! ## The world of a handler -/

/-- `data.get("token")`; a missing key is falsy. -/
inductive TokenField
  | text (token : Text)
  | falsy
  | other

/-- A value of `json.loads`. -/
inductive Loaded
  | dict (token : TokenField)
  | other

structure World (K : Type) where
  jwt : PyJwt K
  -- the wall clock at an instant of the monotonic one
  wallClock : K → K
  -- Redis, where it answers
  blocklist : K → Option (Blocklist K)
  -- `session.get(User, sub)` with its `is_active`; `none` where the session raises
  users : K → Option Int → Option (Option Bool)
  corsOriginsList : List Text
  -- `none` where it raises
  loads : Text → Option Loaded

/-- What the checks of a token come to; `refused` includes whatever they raise. -/
inductive Outcome
  | accepted
  | revoked
  | refused
  deriving DecidableEq

namespace World

variable {K : Type} [Field K] [LinearOrder K]

/-- `_is_token_revoked`, which fails open. -/
def isTokenRevoked (world : World K) (jti : Option Text) (now : K) : Bool :=
  match world.blocklist now with
  | none => false
  | some blocklist => Auth.AccessToken.isTokenRevoked blocklist jti (world.wallClock now)

/-- `decode_access_token`, the blocklist and `user.is_active`, in this order. -/
def authenticate (world : World K) (token : Text) (now : K) : Outcome :=
  match decodeAccessToken world.jwt token (world.wallClock now) with
  | .error _ => .refused
  | .ok payload =>
      if world.isTokenRevoked payload.jti now then .revoked
      else if world.users now payload.sub = some (some true) then .accepted
      else .refused

/-- The token passes all three checks at that instant. -/
def Authenticates (world : World K) (token : Text) (now : K) : Prop :=
  ∃ payload, decodeAccessToken world.jwt token (world.wallClock now) = .ok payload ∧
    world.isTokenRevoked payload.jti now = false ∧ world.users now payload.sub = some (some true)

theorem authenticate_eq_accepted {world : World K} {token : Text} {now : K}
    (accepted : world.authenticate token now = .accepted) : world.Authenticates token now := by
  unfold authenticate at accepted
  split at accepted
  · cases accepted
  · rename_i payload decoded
    split at accepted
    · cases accepted
    · rename_i fresh
      split at accepted
      · rename_i active
        exact ⟨payload, decoded, Bool.eq_false_iff.mpr fresh, active⟩
      · cases accepted

end World

/-! ## One handler -/

/-- `_MAX_WS_BODY` -/
def maxWsBody : Nat := 4096

/-- `_REAUTH_INTERVAL_SECONDS` -/
def reauthIntervalSeconds : Nat := 15 * 60

/-- What `websocket.receive()` returns. -/
inductive Frame
  | text (frame : Text)
  | bytes (frame : List UInt8)
  -- with the length of its `json.dumps`, unless that raises
  | decoded (dumped : Option Nat)
  -- `None`
  | nothing

def Frame.size : Frame → Nat
  | .text frame => frame.length
  | .bytes frame => frame.length
  | .decoded (some dumped) => dumped
  | .decoded none => maxWsBody + 1
  | .nothing => 0

inductive Pc (K : Type)
  -- before `websocket.accept()`
  | accepting
  -- in `wait_for`, until the instant `due`
  | waiting (lastAuth due : K)
  -- with the code of `websocket.close`, if it came to that
  | exited (code : Option Nat)
  deriving DecidableEq

structure Handler (K : Type) where
  pc : Pc K
  -- the tokens that were checked, and when
  presented : List (K × Text)

/-- `_access_token` -/
def accessToken (authorization : Text) (query : Option Text) : Option Text :=
  match bearerToken authorization with
  | some token => some token
  | none => query.filter fun token => !token.isEmpty

section Handlers

variable {K : Type} [Field K] [LinearOrder K]

/-- `_is_origin_allowed` -/
def isOriginAllowed (world : World K) (origin : Option Text) : Bool :=
  origin.all fun origin => decide (origin ∈ world.corsOriginsList)

/-- `alerts_ws` up to `websocket.accept()`. -/
def handshake (world : World K) (now : K) (origin : Option Text) (authorization : Text)
    (query : Option Text) : Handler K :=
  if ¬ isOriginAllowed world origin then ⟨.exited (some 4403), []⟩
  else
    match accessToken authorization query with
    | none => ⟨.exited (some 4401), []⟩
    | some token =>
        match world.authenticate token now with
        | .accepted => ⟨.accepting, [(now, token)]⟩
        | .revoked | .refused => ⟨.exited (some 4401), [(now, token)]⟩

/-- The head of the loop: wait for what is left of the window. -/
def loopHead (now lastAuth : K) : Pc K :=
  let remaining := reauthIntervalSeconds - (now - lastAuth)
  if remaining ≤ 0 then .exited (some 4401) else .waiting lastAuth (now + remaining)

/-- The argument of `decode_access_token(new_token or "")`, where it comes to a text. -/
def newToken (world : World K) (frame : Text) : Option Text :=
  match world.loads frame with
  | none => none
  | some (.dict (.text token)) => some token
  | some (.dict .other) => none
  | some (.dict .falsy) | some .other => some []

/-- A re-auth frame.  Where `websocket.close` raises, the `except` around it takes that too. -/
def reauthenticate (world : World K) (now lastAuth : K) (frame : Text) (closeRaises : Bool) :
    Handler K :=
  match newToken world frame with
  | none => ⟨loopHead now lastAuth, []⟩
  | some token =>
      match world.authenticate token now with
      | .accepted => ⟨loopHead now now, [(now, token)]⟩
      | .revoked =>
          ⟨if closeRaises then loopHead now lastAuth else .exited (some 4401), [(now, token)]⟩
      | .refused => ⟨loopHead now lastAuth, [(now, token)]⟩

/-- The body of the loop, with the tokens it checks. -/
def received (world : World K) (now lastAuth : K) (frame : Frame) (closeRaises : Bool) :
    Handler K :=
  match frame with
  | .nothing => ⟨.exited none, []⟩
  | .text text =>
      if maxWsBody < (Frame.text text).size then ⟨.exited (some 1009), []⟩
      else if (text.dropWhile isSpace).head? = some '{' then reauthenticate world now lastAuth text closeRaises
      else ⟨loopHead now lastAuth, []⟩
  | frame =>
      if maxWsBody < frame.size then ⟨.exited (some 1009), []⟩ else ⟨loopHead now lastAuth, []⟩

end Handlers

/-! ## The handlers and the manager -/

structure State (K : Type) where
  now : K
  -- by socket, in the order of the handshakes
  handlers : List (Handler K)
  -- `manager._connections`
  connections : Finset Nat

inductive Action (K : Type)
  | elapse (d : K)
  | handshake (origin : Option Text) (authorization : Text) (query : Option Text)
  -- `websocket.accept()` and, unless that raises, `manager.connect(sock)`
  | accept (sock : Nat) (raises : Bool)
  | receive (sock : Nat) (frame : Frame) (closeRaises : Bool)
  | timeout (sock : Nat)
  -- `receive()` raises, or the handler is cancelled
  | leave (sock : Nat)
  -- the sockets that `_send_all` finds dead
  | sendAll (dead : Finset Nat)

def Pc.ended {K : Type} : Pc K → Bool
  | .exited _ => true
  | .accepting | .waiting _ _ => false

def Pc.waits {K : Type} : Pc K → Bool
  | .waiting _ _ => true
  | .accepting | .exited _ => false

/-- Nothing is due in this handler before `now`. -/
def Pc.idleUntil {K : Type} [LinearOrder K] (now : K) : Pc K → Bool
  | .accepting => false
  | .waiting _ due => decide (now ≤ due)
  | .exited _ => true

/-- A handler in the `try` goes on; where it ends, `finally` disconnects the socket. -/
def State.goOn {K : Type} (s : State K) (sock : Nat) (handler : Handler K) : State K :=
  { s with
    handlers := s.handlers.set sock handler
    connections := if handler.pc.ended then s.connections.erase sock else s.connections }

def State.connect {K : Type} (s : State K) (sock : Nat) : State K :=
  { s with connections := insert sock s.connections }

def State.start {K : Type} (now : K) : State K := ⟨now, [], ∅⟩

section System

variable {K : Type} [Field K] [LinearOrder K]

def step (world : World K) (s : State K) : Action K → Option (State K)
  | .elapse d =>
      if 0 ≤ d ∧ s.handlers.all (fun h => h.pc.idleUntil (s.now + d)) then some { s with now := s.now + d } else none
  | .handshake origin authorization query =>
      some { s with handlers := s.handlers ++ [handshake world s.now origin authorization query] }
  | .accept sock raises =>
      match s.handlers[sock]? with
      | some ⟨.accepting, presented⟩ =>
          if raises then some { s with handlers := s.handlers.set sock ⟨.exited none, presented⟩ }
          else some ((s.connect sock).goOn sock ⟨loopHead s.now s.now, presented⟩)
      | _ => none
  | .receive sock frame closeRaises =>
      match s.handlers[sock]? with
      | some ⟨.waiting lastAuth _, presented⟩ =>
          let next := received world s.now lastAuth frame closeRaises
          some (s.goOn sock ⟨next.pc, next.presented ++ presented⟩)
      | _ => none
  | .timeout sock =>
      match s.handlers[sock]? with
      | some ⟨.waiting _ due, presented⟩ =>
          if due ≤ s.now then some (s.goOn sock ⟨.exited (some 4401), presented⟩) else none
      | _ => none
  | .leave sock =>
      match s.handlers[sock]? with
      | some ⟨.waiting _ _, presented⟩ => some (s.goOn sock ⟨.exited none, presented⟩)
      | _ => none
  | .sendAll dead => some { s with connections := s.connections \ dead }

/-- An action that is not enabled changes nothing. -/
def next (world : World K) (s : State K) (a : Action K) : State K := (step world s a).getD s

/-! ## The window -/

/-- Every handler that waits for frames has authenticated in the last fifteen minutes, and no
handler that has ended has its socket in the manager. -/
structure Windowed (world : World K) (s : State K) : Prop where
  authenticated : ∀ (sock : Nat) lastAuth due presented, s.handlers[sock]? =
    some ⟨.waiting lastAuth due, presented⟩ →
    ∃ e ∈ presented, world.Authenticates e.2 e.1 ∧ e.1 ≤ s.now ∧ s.now ≤ e.1 + 900
  disconnected : ∀ (sock : Nat) code presented, s.handlers[sock]? = some ⟨.exited code, presented⟩ →
    sock ∉ s.connections

end System

section Run

variable {K : Type} [Field K] [LinearOrder K] {world : World K} {now lastAuth : K}

theorem reauthenticate_cases (world : World K) (now lastAuth : K) (frame : Text)
    (closeRaises : Bool) : (reauthenticate world now lastAuth frame closeRaises).pc.ended = true ∨
      (reauthenticate world now lastAuth frame closeRaises).pc = loopHead now lastAuth ∨
      ∃ token, world.Authenticates token now ∧
        reauthenticate world now lastAuth frame closeRaises =
          ⟨loopHead now now, [(now, token)]⟩ := by
  unfold reauthenticate
  split
  · exact Or.inr (Or.inl rfl)
  · rename_i token _
    split
    · rename_i accepted
      exact Or.inr (Or.inr ⟨token, World.authenticate_eq_accepted accepted, rfl⟩)
    · -- the close of a revoked token, and the `except` that may take it
      cases closeRaises with
      | true => exact Or.inr (Or.inl rfl)
      | false => exact Or.inl rfl
    · exact Or.inr (Or.inl rfl)

/-- **What a frame does to the window**: it ends the handler, leaves the window as it was, or
starts a new one with a token that authenticates now. -/
theorem received_cases (world : World K) (now lastAuth : K) (frame : Frame) (closeRaises : Bool) :
    (received world now lastAuth frame closeRaises).pc.ended = true ∨
      (received world now lastAuth frame closeRaises).pc = loopHead now lastAuth ∨
      ∃ token, world.Authenticates token now ∧
        received world now lastAuth frame closeRaises = ⟨loopHead now now, [(now, token)]⟩ := by
  cases frame with
  | nothing => exact Or.inl rfl
  | text text =>
      simp only [received]
      split
      · exact Or.inl rfl
      · split
        · exact reauthenticate_cases world now lastAuth text closeRaises
        · exact Or.inr (Or.inl rfl)
  | bytes frame =>
      simp only [received]
      split
      · exact Or.inl rfl
      · exact Or.inr (Or.inl rfl)
  | decoded dumped =>
      simp only [received]
      split
      · exact Or.inl rfl
      · exact Or.inr (Or.inl rfl)

/-! ## The invariant -/

/-- What a handler has to show for where it stands. -/
def Handler.Fresh (world : World K) (now : K) (h : Handler K) : Prop :=
  match h.pc with
  | .accepting => ∃ token, (now, token) ∈ h.presented ∧ world.Authenticates token now
  | .waiting lastAuth due =>
      due = lastAuth + 900 ∧ lastAuth ≤ now ∧ now ≤ due ∧
        ∃ token, (lastAuth, token) ∈ h.presented ∧ world.Authenticates token lastAuth
  | .exited _ => True

/-- The manager holds sockets of waiting handlers only. -/
structure Inv (world : World K) (s : State K) : Prop where
  fresh : ∀ h ∈ s.handlers, h.Fresh world s.now
  connected : ∀ sock ∈ s.connections, ∃ h, s.handlers[sock]? = some h ∧ h.pc.waits = true

theorem fresh_handshake (origin : Option Text) (authorization : Text) (query : Option Text) :
    (handshake world now origin authorization query).Fresh world now := by
  unfold handshake
  split
  · trivial
  · split
    · trivial
    · rename_i token _
      split
      · rename_i accepted
        exact ⟨token, List.mem_singleton_self _, World.authenticate_eq_accepted accepted⟩
      · trivial
      · trivial

/-- A handler goes on: it ends and is disconnected, or waits. -/
theorem inv_goOn {s : State K} {sock : Nat} {h' : Handler K} (here : sock < s.handlers.length)
    (fresh : ∀ h ∈ s.handlers, h.Fresh world s.now)
    (connected : ∀ other ∈ s.connections, other ≠ sock →
      ∃ h, s.handlers[other]? = some h ∧ h.pc.waits = true)
    (next : h'.Fresh world s.now ∧ (h'.pc.ended = true ∨ h'.pc.waits = true)) :
    Inv world (s.goOn sock h') where
  fresh := by
    intro h member
    rcases List.mem_or_eq_of_mem_set member with old | rfl
    · exact fresh h old
    · exact next.1
  connected := by
    intro other member
    show ∃ h, (s.handlers.set sock h')[other]? = some h ∧ h.pc.waits = true
    by_cases same : other = sock
    · subst same
      rcases next.2 with ended | waits
      · simp [State.goOn, ended] at member
      · exact ⟨h', by simp [here], waits⟩
    · have still : other ∈ s.connections := by
        simp only [State.goOn] at member
        split at member
        · exact Finset.mem_of_mem_erase member
        · exact member
      rw [List.getElem?_set_ne (Ne.symm same)]
      exact connected other still same

/-- An ended handler has nothing to show. -/
theorem fresh_of_ended {h : Handler K} (ended : h.pc.ended = true) : h.Fresh world now := by
  obtain ⟨pc, presented⟩ := h
  cases pc with
  | accepting => cases ended
  | waiting lastAuth due => cases ended
  | exited code => trivial

section Steps

variable {s s' : State K} {sock : Nat} {presented : List (K × Text)}

theorem inv_end (inv : Inv world s) {h : Handler K} (here : s.handlers[sock]? = some h)
    (code : Option Nat) : Inv world (s.goOn sock ⟨.exited code, presented⟩) :=
  inv_goOn (List.getElem?_eq_some_iff.mp here).1 inv.fresh
    (fun other member _ => inv.connected other member)
    ⟨trivial, Or.inl rfl⟩

/-- `accept` raises before the socket is registered. -/
theorem inv_accept_raises (inv : Inv world s)
    (here : s.handlers[sock]? = some ⟨.accepting, presented⟩) :
    Inv world { s with handlers := s.handlers.set sock ⟨.exited none, presented⟩ } where
  fresh := by
    intro h member
    rcases List.mem_or_eq_of_mem_set member with old | rfl
    · exact inv.fresh h old
    · trivial
  connected := by
    intro other member
    obtain ⟨h, there, waits⟩ := inv.connected other member
    have apart : sock ≠ other := by
      rintro rfl
      cases here.symm.trans there
      cases waits
    exact ⟨h, (List.getElem?_set_ne apart).trans there, waits⟩

theorem inv_handshake (inv : Inv world s) (origin : Option Text) (authorization : Text)
    (query : Option Text) : Inv world { s with
      handlers := s.handlers ++ [handshake world s.now origin authorization query] } where
  fresh := by
    intro h member
    rcases List.mem_append.mp member with old | new
    · exact inv.fresh h old
    · obtain rfl := List.mem_singleton.mp new
      exact fresh_handshake origin authorization query
  connected := by
    intro other member
    obtain ⟨h, here, waits⟩ := inv.connected other member
    exact ⟨h, (List.getElem?_append_left (List.getElem?_eq_some_iff.mp here).1).trans here, waits⟩

variable [IsStrictOrderedRing K]

/-- The head of the loop closes, or sets a timeout at the end of the window. -/
theorem loopHead_cases (now lastAuth : K) :
    (lastAuth + 900 ≤ now ∧ loopHead now lastAuth = .exited (some 4401)) ∨
      (now < lastAuth + 900 ∧ loopHead now lastAuth = .waiting lastAuth (lastAuth + 900)) := by
  have interval : ((reauthIntervalSeconds : Nat) : K) = 900 := by norm_num [reauthIntervalSeconds]
  simp only [loopHead, interval]
  split
  · rename_i elapsed
    exact Or.inl ⟨by linarith, rfl⟩
  · rename_i remains
    have due : now + (900 - (now - lastAuth)) = lastAuth + 900 := by ring
    rw [due]
    exact Or.inr ⟨by linarith, rfl⟩

/-- The head of the loop is in order once the last authentication is on record. -/
theorem fresh_loopHead {presented : List (K × Text)} {token : Text} (earlier : lastAuth ≤ now)
    (recorded : (lastAuth, token) ∈ presented)
    (authenticates : world.Authenticates token lastAuth) :
    (Handler.mk (loopHead now lastAuth) presented).Fresh world now ∧
      ((loopHead now lastAuth).ended = true ∨ (loopHead now lastAuth).waits = true) := by
  rcases loopHead_cases now lastAuth with ⟨_, closed⟩ | ⟨inTime, waiting⟩
  · rw [closed]
    exact ⟨trivial, Or.inl rfl⟩
  · rw [waiting]
    exact ⟨⟨rfl, earlier, inTime.le, token, recorded, authenticates⟩, Or.inr rfl⟩

/-- Time passes: no window that is still waited for has run out. -/
theorem fresh_elapse {h : Handler K} {d : K} (forward : 0 ≤ d) (fresh : h.Fresh world now)
    (idle : h.pc.idleUntil (now + d) = true) : h.Fresh world (now + d) := by
  obtain ⟨pc, presented⟩ := h
  cases pc with
  | accepting => cases idle
  | waiting lastAuth due =>
      obtain ⟨window, earlier, _, recorded⟩ := fresh
      have later : lastAuth ≤ now + d := by linarith
      exact ⟨window, later, of_decide_eq_true idle, recorded⟩
  | exited code => trivial

theorem inv_accept (inv : Inv world s) (here : s.handlers[sock]? = some ⟨.accepting, presented⟩) :
    Inv world ((s.connect sock).goOn sock ⟨loopHead s.now s.now, presented⟩) := by
  obtain ⟨token, recorded, authenticates⟩ := inv.fresh _ (List.mem_of_getElem? here)
  refine inv_goOn (List.getElem?_eq_some_iff.mp here).1 inv.fresh (fun other member apart => ?_)
    (fresh_loopHead le_rfl recorded authenticates)
  exact inv.connected other (Finset.mem_of_mem_insert_of_ne member apart)

theorem inv_receive (inv : Inv world s) {due : K}
    (here : s.handlers[sock]? = some ⟨.waiting lastAuth due, presented⟩) (frame : Frame)
    (closeRaises : Bool) :
    Inv world (s.goOn sock ⟨(received world s.now lastAuth frame closeRaises).pc,
      (received world s.now lastAuth frame closeRaises).presented ++ presented⟩) := by
  obtain ⟨_, earlier, _, token, recorded, authenticates⟩ := inv.fresh _ (List.mem_of_getElem? here)
  refine inv_goOn (List.getElem?_eq_some_iff.mp here).1 inv.fresh
    (fun other member _ => inv.connected other member) ?_
  rcases received_cases world s.now lastAuth frame closeRaises with ended | same |
    ⟨token', authenticates', renewed⟩
  · exact ⟨fresh_of_ended ended, Or.inl ended⟩
  · rw [same]
    exact fresh_loopHead earlier (List.mem_append_right _ recorded) authenticates
  · rw [renewed]
    exact fresh_loopHead le_rfl List.mem_cons_self authenticates'

theorem inv_step {a : Action K} (inv : Inv world s) (stepped : step world s a = some s') :
    Inv world s' := by
  cases a with
  | elapse d =>
      simp only [step] at stepped
      split at stepped
      · rename_i quiet
        cases stepped
        refine ⟨fun h member => ?_, inv.connected⟩
        exact fresh_elapse quiet.1 (inv.fresh h member) (List.all_eq_true.mp quiet.2 h member)
      · cases stepped
  | handshake origin authorization query =>
      cases stepped
      exact inv_handshake inv origin authorization query
  | accept sock raises =>
      simp only [step] at stepped
      split at stepped
      · rename_i here
        split at stepped
        · cases stepped
          exact inv_accept_raises inv here
        · cases stepped
          exact inv_accept inv here
      · cases stepped
  | receive sock frame closeRaises =>
      simp only [step] at stepped
      split at stepped
      · rename_i here
        cases stepped
        exact inv_receive inv here frame closeRaises
      · cases stepped
  | timeout sock =>
      simp only [step] at stepped
      split at stepped
      · rename_i here
        split at stepped
        · cases stepped
          exact inv_end inv here (some 4401)
        · cases stepped
      · cases stepped
  | leave sock =>
      simp only [step] at stepped
      split at stepped
      · rename_i here
        cases stepped
        exact inv_end inv here none
      · cases stepped
  | sendAll dead =>
      cases stepped
      exact ⟨inv.fresh, fun sock member => inv.connected sock (Finset.mem_sdiff.mp member).1⟩

end Steps

variable [IsStrictOrderedRing K]

theorem inv_run (actions : List (Action K)) {s : State K} (inv : Inv world s) :
    Inv world (actions.foldl (next world) s) := by
  induction actions generalizing s with
  | nil => exact inv
  | cons a actions ih =>
      apply ih
      show Inv world ((step world s a).getD s)
      cases stepped : step world s a with
      | none => exact inv
      | some s' => exact inv_step inv stepped

/-- **No socket outlives its window.** -/
theorem reauth_window (world : World K) (now : K) (actions : List (Action K)) :
    Windowed world (actions.foldl (next world) (State.start now)) := by
  have begins : Inv world (State.start now) := ⟨by simp [State.start], by simp [State.start]⟩
  have inv := inv_run actions begins
  refine ⟨fun sock lastAuth due presented here => ?_, fun sock code presented here connected => ?_⟩
  · obtain ⟨rfl, earlier, inTime, token, recorded, authenticates⟩ :=
      inv.fresh _ (List.mem_of_getElem? here)
    exact ⟨(lastAuth, token), recorded, authenticates, earlier, inTime⟩
  · obtain ⟨h, there, waits⟩ := inv.connected sock connected
    cases here.symm.trans there
    cases waits

end Run

/-- The one token `t` of user 7, in every frame too, and nothing revoked. -/
def quietWorld : World Rat where
  jwt := oneToken
  wallClock := id
  blocklist := fun _ => some fun _ => none
  users := fun _ _ => some (some true)
  corsOriginsList := []
  loads := fun _ => some (.dict (.text "t".toList))

/-- A socket that authenticates again after a minute, and then waits out its window. -/
def oneSocket : List (Action Rat) :=
  [.handshake none "Bearer t".toList none, .accept 0 false, .elapse 60,
    .receive 0 (.text "{}".toList) false, .elapse 900]

theorem reauth_window_oneSocket :
    Windowed quietWorld (oneSocket.foldl (next quietWorld) (State.start 0)) ∧
      ((oneSocket.foldl (next quietWorld) (State.start 0)).handlers[0]?.map Handler.pc) =
        some (.waiting 60 960) ∧
      (oneSocket.foldl (next quietWorld) (State.start 0)).now = 960 :=
  ⟨reauth_window quietWorld 0 oneSocket, by decide +kernel, by decide +kernel⟩

end Empyrean.Api.AlertSockets
