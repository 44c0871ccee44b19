/-
# Empyrean.Auth.AccessToken — access tokens and their revocation

An access token is a signed payload with an integral `exp`.  Revoking it writes its `jti`
to Redis with the remaining lifetime as the key's TTL; authentication rejects a token
that has expired or whose `jti` is still there.  PyJWT compares `exp` with a clock that
has fractions of a second, and the TTL is that difference *truncated*, so the key is gone
up to a second before the token expires.

* `revokeAccessToken`, `isTokenRevoked` — the blocklist.
* `decodeAccessToken`, `authenticateUser` — the checks of a request, in their order.
* `rejected_for_life_iff` — when a revocation lasts for the rest of the token's life;
  `rejected_for_life_last` — of several revocations the last one decides, also where it gives
  the key the shorter life.

Times are seconds, in any ordered field with a floor.  PyJWT is the parameter `PyJwt`;
`Documented` is what is relied on.
-/
import Empyrean.Theory.Expiry
import Empyrean.Theory.PyNumeral
import Mathlib.Algebra.Order.Floor.Ring
import Mathlib.Data.Rat.Floor
import Mathlib.Tactic.Linarith
import Mathlib.Tactic.NormNum

namespace Empyrean.Auth.AccessToken

set_option autoImplicit false

open Empyrean.Theory.Expiry (Expired not_expired_iff)
open Empyrean.Theory.PyNumeral (Text strip)

/-! ## Tokens -/

/-- The claims of a decoded token; `none` is a claim that is missing or of another type. -/
structure Payload where
  sub : Option Int
  role : Option Text
  type : Option Text
  jti : Option Text
  exp : Int
  deriving DecidableEq

inductive JwtError
  | expiredSignature
  | invalidToken
  deriving DecidableEq, Repr

/-- `pyjwt.decode` with the configured secret: signature, required claims and `exp`. -/
structure PyJwt (K : Type) where
  decode : Text → K → Except JwtError Payload

/-- A token that was accepted is accepted again, with the same claims, until `exp`. -/
def PyJwt.Documented {K : Type} [Field K] [LinearOrder K] (jwt : PyJwt K) : Prop :=
  ∀ token earlier payload now, jwt.decode token earlier = .ok payload → earlier ≤ now →
    jwt.decode token now = if (payload.exp : K) ≤ now then .error .expiredSignature else .ok payload

/-- `decode_access_token` -/
def decodeAccessToken {K : Type} (jwt : PyJwt K) (token : Text) (now : K) :
    Except JwtError Payload :=
  match jwt.decode token now with
  | .error error => .error error
  | .ok payload =>
      if payload.type ≠ some "access".toList then .error .invalidToken
      else if payload.sub = none then .error .invalidToken
      else if payload.role ≠ some "admin".toList ∧ payload.role ≠ some "user".toList then .error .invalidToken
      else .ok payload

/-! ## The blocklist -/

/-- `int(x)` of a float: towards zero. -/
def truncate {K : Type} [Field K] [LinearOrder K] [FloorRing K] (x : K) : Int :=
  if 0 ≤ x then ⌊x⌋ else ⌈x⌉

/-- A key written by `SET … EX ttl`, at the clock of the store. -/
structure Entry (K : Type) where
  setAt : K
  ttl : Int

/-- `jwt:blocklist:{jti}`, by `jti`. -/
abbrev Blocklist (K : Type) := Text → Option (Entry K)

section Blocklist

variable {K : Type} [Field K] [LinearOrder K] [FloorRing K]

/-- The key exists until its TTL has run out. -/
def Entry.alive (entry : Entry K) (now : K) : Bool :=
  !decide (Expired (entry.setAt + entry.ttl) now)

/-- The TTL that `revoke_access_token` gives to the key; an `exp` of 0 counts as missing. -/
def blocklistTtl (exp : Int) (now : K) : Int :=
  if exp = 0 then 3600 else max (truncate ((exp : K) - now)) 1

/-- `revoke_access_token`; a token without a `jti` is skipped. -/
def revokeAccessToken (blocklist : Blocklist K) (payload : Payload) (now : K) : Blocklist K :=
  match payload.jti with
  | none | some [] => blocklist
  | some jti => Function.update blocklist jti (some ⟨now, blocklistTtl payload.exp now⟩)

/-- Revocations in their order, each with its clock. -/
def revokeAll (blocklist : Blocklist K) (revocations : List (Payload × K)) : Blocklist K :=
  revocations.foldl (fun blocklist revocation => revokeAccessToken blocklist revocation.1 revocation.2) blocklist

/-- `_is_token_revoked` -/
def isTokenRevoked (blocklist : Blocklist K) (jti : Option Text) (now : K) : Bool :=
  match jti with
  | none | some [] => false
  | some jti => (blocklist jti).any (·.alive now)

end Blocklist

/-! ## Authentication -/

/-- Why `_authenticate_user` refuses a request. -/
inductive Rejection
  | malformedHeader
  | expired
  | invalid
  | revoked
  | unauthorized
  deriving DecidableEq, Repr

structure Problem where
  status : Nat
  title : String
  detail : String
  deriving DecidableEq, Repr

/-- What the client is told: a revoked token looks like an invalid one. -/
def Rejection.problem : Rejection → Problem
  | .malformedHeader => ⟨401, "Unauthorized", "Missing or malformed Authorization header"⟩
  | .expired => ⟨401, "Token expired", "Access token has expired"⟩
  | .invalid => ⟨401, "Invalid token", "Access token is not valid"⟩
  | .revoked => ⟨401, "Invalid token", "Access token is not valid"⟩
  | .unauthorized => ⟨401, "Unauthorized", "Access token is not valid"⟩

/-- The token of an `Authorization` header. -/
def bearerToken (header : Text) : Option Text :=
  if "bearer ".toList <+: header.map Char.toLower then some (strip (header.drop 7)) else none

/-- `_authenticate_user`; `user` is `_get_user_cached`, with the account's `is_active`. -/
def authenticateUser {K : Type} [Field K] [LinearOrder K] (jwt : PyJwt K) (blocklist : Blocklist K)
    (user : Option Int → Option Bool) (header : Text) (now : K) : Except Rejection (Option Int) :=
  match bearerToken header with
  | none => .error .malformedHeader
  | some token =>
      match decodeAccessToken jwt token now with
      | .error .expiredSignature => .error .expired
      | .error .invalidToken => .error .invalid
      | .ok payload =>
          if isTokenRevoked blocklist payload.jti now then .error .revoked
          else if user payload.sub = some true then .ok payload.sub
          else .error .unauthorized

theorem decodeAccessToken_ok {K : Type} {jwt : PyJwt K} {token : Text} {now : K} {payload : Payload}
    (accepted : decodeAccessToken jwt token now = .ok payload) :
    jwt.decode token now = .ok payload := by
  unfold decodeAccessToken at accepted
  split at accepted
  · cases accepted
  · split at accepted
    · cases accepted
    · split at accepted
      · cases accepted
      · split at accepted
        · cases accepted
        · rename_i decoded _ _ _
          cases accepted
          exact decoded

section Revocation

variable {K : Type} [Field K] [LinearOrder K]

/-- The route's own checks do not depend on the clock. -/
theorem decodeAccessToken_later {jwt : PyJwt K} (documented : jwt.Documented) {token : Text}
    {earlier now : K} {payload : Payload}
    (accepted : decodeAccessToken jwt token earlier = .ok payload) (later : earlier ≤ now) :
    decodeAccessToken jwt token now =
      if (payload.exp : K) ≤ now then .error .expiredSignature else .ok payload := by
  have decoded := decodeAccessToken_ok accepted
  have again := documented token earlier payload now decoded later
  have checks : ∀ other, decodeAccessToken jwt token other =
      match jwt.decode token other with
      | .error error => .error error
      | .ok _ => decodeAccessToken jwt token other := by
    intro other
    cases found : jwt.decode token other with
    | error error => simp [decodeAccessToken, found]
    | ok found => rfl
  rw [checks, again]
  by_cases expired : (payload.exp : K) ≤ now
  · simp [expired]
  · simp only [expired, if_false]
    rw [if_neg expired] at again
    rw [← accepted]
    simp only [decodeAccessToken, again, decoded]

/-- The token is refused at `now` because it has expired or is on the blocklist. -/
def Rejected (jwt : PyJwt K) (blocklist : Blocklist K) (user : Option Int → Option Bool)
    (header : Text) (now : K) : Prop :=
  authenticateUser jwt blocklist user header now = .error .expired ∨
    authenticateUser jwt blocklist user header now = .error .revoked

/-- What is left of the token's life at `now` is at most a second, or a whole number of
seconds; the middle case is an `exp` that counts as missing. -/
def Covered (exp : Int) (now : K) : Prop :=
  (exp : K) ≤ now + 1 ∨ (exp = 0 ∧ -3600 ≤ now) ∨
    (exp ≠ 0 ∧ ∃ seconds : Int, (exp : K) - now = seconds)

theorem rejected_iff {jwt : PyJwt K} (documented : jwt.Documented) {header token : Text}
    {earlier now : K} {payload : Payload} (bearer : bearerToken header = some token)
    (accepted : decodeAccessToken jwt token earlier = .ok payload) (later : earlier ≤ now)
    (blocklist : Blocklist K) (user : Option Int → Option Bool) :
    Rejected jwt blocklist user header now ↔
      (payload.exp : K) ≤ now ∨ isTokenRevoked blocklist payload.jti now = true := by
  have decoded := decodeAccessToken_later documented accepted later
  by_cases expired : (payload.exp : K) ≤ now
  · simp [Rejected, authenticateUser, bearer, decoded, expired]
  · rw [if_neg expired] at decoded
    by_cases revoked : isTokenRevoked blocklist payload.jti now = true
    · simp [Rejected, authenticateUser, bearer, decoded, revoked]
    · by_cases active : user payload.sub = some true <;>
        simp [Rejected, authenticateUser, bearer, decoded, expired, revoked, active]

variable [FloorRing K]

/-- Right after a revocation the blocklist answers for the token by the key's TTL. -/
theorem isTokenRevoked_revoke (blocklist : Blocklist K) {payload : Payload} {jti : Text}
    (carries : payload.jti = some jti) (nonempty : jti ≠ []) (at_ now : K) :
    isTokenRevoked (revokeAccessToken blocklist payload at_) payload.jti now =
      !decide (Expired (at_ + blocklistTtl payload.exp at_) now) := by
  cases jti with
  | nil => exact absurd rfl nonempty
  | cons c rest => simp [isTokenRevoked, revokeAccessToken, carries, Entry.alive]

/-- The revocation of a token leaves every other token's key as it was. -/
theorem isTokenRevoked_of_ne (blocklist : Blocklist K) {payload : Payload} {jti : Option Text}
    (different : payload.jti ≠ jti) (at_ now : K) :
    isTokenRevoked (revokeAccessToken blocklist payload at_) jti now =
      isTokenRevoked blocklist jti now := by
  cases carries : payload.jti with
  | none => simp [revokeAccessToken, carries]
  | some written =>
      cases written with
      | nil => simp [revokeAccessToken, carries]
      | cons c rest =>
          cases jti with
          | none => rfl
          | some asked =>
              have apart : asked ≠ c :: rest := by
                rintro rfl
                exact different carries
              cases asked <;> simp [isTokenRevoked, revokeAccessToken, carries, apart]

theorem one_le_blocklistTtl (exp : Int) (now : K) : 1 ≤ blocklistTtl exp now := by
  unfold blocklistTtl
  split <;> omega

variable [IsStrictOrderedRing K]

/-- Where the condition holds the key outlives the token. -/
theorem exp_le_of_covered {exp : Int} {now later : K} (covered : Covered exp now)
    (after : now ≤ later) (alive : later < exp) : later < now + blocklistTtl exp now := by
  have ttl : (1 : K) ≤ blocklistTtl exp now := by exact_mod_cast one_le_blocklistTtl exp now
  rcases covered with short | ⟨rfl, recent⟩ | ⟨present, seconds, whole⟩
  · linarith
  · have missing : blocklistTtl 0 now = 3600 := if_pos rfl
    have zero : ((0 : Int) : K) = 0 := Int.cast_zero
    rw [missing]
    rw [zero] at alive
    push_cast
    linarith
  · have positive : (0 : K) ≤ (exp : K) - now := by linarith
    have truncated : truncate ((exp : K) - now) = seconds := by
      rw [truncate, if_pos positive, whole, Int.floor_intCast]
    have enough : seconds ≤ blocklistTtl exp now := by
      rw [blocklistTtl, if_neg present, truncated]
      exact le_max_left _ _
    have enough : (seconds : K) ≤ blocklistTtl exp now := by exact_mod_cast enough
    linarith

/-- Where it fails the key is gone at an instant at which the token still lives. -/
theorem lt_exp_of_not_covered {exp : Int} {now : K} (uncovered : ¬ Covered exp now) :
    now + blocklistTtl exp now < exp := by
  simp only [Covered, not_or, not_and, not_exists, not_le] at uncovered
  obtain ⟨long, missing, fractional⟩ := uncovered
  by_cases zero : exp = 0
  · subst zero
    have recent := missing rfl
    have ttl : blocklistTtl 0 now = 3600 := if_pos rfl
    rw [ttl]
    push_cast
    linarith
  · have positive : (0 : K) ≤ (exp : K) - now := by linarith
    have floor : (1 : Int) ≤ ⌊(exp : K) - now⌋ := Int.le_floor.mpr (by push_cast; linarith)
    have ttl : blocklistTtl exp now = ⌊(exp : K) - now⌋ := by
      rw [blocklistTtl, if_neg zero, truncate, if_pos positive, max_eq_left floor]
    have below : (⌊(exp : K) - now⌋ : K) < exp - now :=
      lt_of_le_of_ne (Int.floor_le _) fun same => fractional zero _ same.symm
    rw [ttl]
    linarith

/-- Whether the token is dead or blocked from a revocation on. -/
theorem revoked_for_life_iff (blocklist : Blocklist K) (payload : Payload) (at_ : K) :
    (∀ now, at_ ≤ now →
      (payload.exp : K) ≤ now ∨
        isTokenRevoked (revokeAccessToken blocklist payload at_) payload.jti now = true) ↔
      (payload.exp : K) ≤ at_ ∨ ((∃ jti ∈ payload.jti, jti ≠ []) ∧ Covered payload.exp at_) := by
  constructor
  · intro rejected
    by_cases carries : ∃ jti ∈ payload.jti, jti ≠ []
    · right
      refine ⟨carries, ?_⟩
      obtain ⟨jti, carries, nonempty⟩ := carries
      by_contra uncovered
      -- an instant at which the key is gone and the token still lives
      obtain ⟨now, gone, lives⟩ := exists_between (lt_exp_of_not_covered uncovered)
      have ttl : (1 : K) ≤ blocklistTtl payload.exp at_ := by
        exact_mod_cast one_le_blocklistTtl payload.exp at_
      have after : at_ ≤ now := by linarith
      rcases rejected now after with expired | revoked
      · linarith
      · rw [isTokenRevoked_revoke blocklist carries nonempty, Bool.not_eq_true',
          decide_eq_false_iff_not] at revoked
        exact revoked gone
    · left
      rcases rejected at_ le_rfl with expired | revoked
      · exact expired
      · unfold isTokenRevoked at revoked
        split at revoked
        · cases revoked
        · cases revoked
        · rename_i jti nonempty found
          exact absurd ⟨jti, found, nonempty⟩ carries
  · intro condition now after
    by_cases expired : (payload.exp : K) ≤ now
    · exact Or.inl expired
    · right
      rcases condition with dead | ⟨⟨jti, carries, nonempty⟩, covered⟩
      · exact absurd (dead.trans after) expired
      · rw [isTokenRevoked_revoke blocklist carries nonempty, Bool.not_eq_true',
          decide_eq_false_iff_not, not_expired_iff]
        exact (exp_le_of_covered covered after (not_le.mp expired)).le

/-- **How long a revocation lasts.**  A token that was accepted and is revoked at `at_` is
rejected at every later time exactly when it had expired by then, or carries a `jti` and
its remaining life is covered by the truncated TTL. -/
theorem rejected_for_life_iff {jwt : PyJwt K} (documented : jwt.Documented) {header token : Text}
    {earlier at_ : K} {payload : Payload} (bearer : bearerToken header = some token)
    (accepted : decodeAccessToken jwt token earlier = .ok payload) (later : earlier ≤ at_)
    (blocklist : Blocklist K) (user : Option Int → Option Bool) :
    (∀ now, at_ ≤ now → Rejected jwt (revokeAccessToken blocklist payload at_) user header now) ↔
      (payload.exp : K) ≤ at_ ∨ ((∃ jti ∈ payload.jti, jti ≠ []) ∧ Covered payload.exp at_) := by
  rw [← revoked_for_life_iff blocklist payload at_]
  exact forall₂_congr fun now after =>
    rejected_iff documented bearer accepted (later.trans after) _ user

omit [IsStrictOrderedRing K] in
/-- Revocations of other tokens. -/
theorem isTokenRevoked_revokeAll (revocations : List (Payload × K)) {jti : Option Text} (now : K) :
    ∀ blocklist : Blocklist K, (∀ r ∈ revocations, r.1.jti ≠ jti) →
      isTokenRevoked (revokeAll blocklist revocations) jti now =
        isTokenRevoked blocklist jti now := by
  induction revocations with
  | nil => exact fun _ _ => rfl
  | cons first rest ih =>
      intro blocklist others
      have unseen := isTokenRevoked_of_ne blocklist (others first List.mem_cons_self) first.2 now
      exact (ih _ fun r member => others r (List.mem_cons_of_mem _ member)).trans unseen

/-- **Several revocations.**  The last one of the token decides: it writes its key anew, whatever
was revoked before, and other tokens have keys of their own. -/
theorem rejected_for_life_last {jwt : PyJwt K} (documented : jwt.Documented) {header token : Text}
    {earlier at_ : K} {payload : Payload} (bearer : bearerToken header = some token)
    (accepted : decodeAccessToken jwt token earlier = .ok payload) (later : earlier ≤ at_)
    (blocklist : Blocklist K) (user : Option Int → Option Bool) (before : List (Payload × K))
    {after : List (Payload × K)}
    (others : ∀ r ∈ after, r.1.jti ≠ payload.jti) :
    (∀ now, at_ ≤ now →
      Rejected jwt (revokeAll blocklist (before ++ (payload, at_) :: after)) user header now) ↔
      (payload.exp : K) ≤ at_ ∨ ((∃ jti ∈ payload.jti, jti ≠ []) ∧ Covered payload.exp at_) := by
  have last : revokeAll blocklist (before ++ (payload, at_) :: after) =
      revokeAll (revokeAccessToken (revokeAll blocklist before) payload at_) after := by
    rw [revokeAll, List.foldl_append]
    rfl
  rw [← revoked_for_life_iff (revokeAll blocklist before) payload at_, last]
  refine forall₂_congr fun now from_ => ?_
  rw [rejected_iff documented bearer accepted (later.trans from_) _ user,
    isTokenRevoked_revokeAll after now _ others]

end Revocation

/-! ## A token that expires at 100 -/

/-- The one token `t` of user 7. -/
def session : Payload :=
  { sub := some 7
    role := some "user".toList
    type := some "access".toList
    jti := some "j".toList
    exp := 100 }

def oneToken : PyJwt Rat where
  decode := fun token now =>
    if token = "t".toList then if (session.exp : Rat) ≤ now then .error .expiredSignature
    else .ok session
    else .error .invalidToken

theorem documented_oneToken : oneToken.Documented := by
  intro token earlier payload now decoded _
  simp only [oneToken] at decoded ⊢
  split at decoded
  · rename_i same
    rw [if_pos same]
    split at decoded
    · cases decoded
    · cases decoded
      rfl
  · cases decoded

/-- Accepted and revoked ten seconds before it expires, the token is never accepted again. -/
theorem rejected_for_life_tenSeconds :
    authenticateUser oneToken (fun _ => none) (fun _ => some true) "Bearer t".toList (90 : Rat) =
      .ok (some 7) ∧
      ∀ now, (90 : Rat) ≤ now →
        Rejected oneToken (revokeAccessToken (fun _ => none) session 90)
          (fun _ => some true) "Bearer t".toList
          now := by
  have bearer : bearerToken "Bearer t".toList = some "t".toList := by decide
  have accepted : decodeAccessToken oneToken "t".toList (90 : Rat) = .ok session := by
    decide +kernel
  have covered : Covered session.exp (90 : Rat) :=
    Or.inr (Or.inr ⟨by decide, 10, by norm_num [session]⟩)
  refine ⟨by decide +kernel, ?_⟩
  exact (rejected_for_life_iff documented_oneToken bearer accepted le_rfl _ _).mpr
    (Or.inr ⟨⟨"j".toList, rfl, by decide⟩, covered⟩)

/-- Revoked a second time, half a second later, it has a key of nine seconds in place of ten. -/
example : authenticateUser oneToken (revokeAll (fun _ => none) [(session, 90), (session, 181 / 2)])
    (fun _ => some true) "Bearer t".toList (399 / 4 : Rat) = .ok (some 7) := by
  decide +kernel

/-- **Revoked 9.5 seconds before it expires**, the token is accepted again a quarter of a
second before. -/
theorem accepted_after_revocation :
    ¬ (∀ now, (181 / 2 : Rat) ≤ now →
        Rejected oneToken (revokeAccessToken (fun _ => none) session (181 / 2)) (fun _ => some true)
          "Bearer t".toList now) ∧
      authenticateUser oneToken (revokeAccessToken (fun _ => none) session (181 / 2))
        (fun _ => some true)
        "Bearer t".toList (399 / 4) = .ok (some 7) := by
  have accepted : authenticateUser oneToken (revokeAccessToken (fun _ => none) session (181 / 2))
      (fun _ => some true) "Bearer t".toList (399 / 4) = .ok (some 7) := by decide +kernel
  refine ⟨?_, accepted⟩
  intro rejected
  rcases rejected (399 / 4) (by norm_num) with expired | revoked
  · rw [accepted] at expired
    cases expired
  · rw [accepted] at revoked
    cases revoked

end Empyrean.Auth.AccessToken
