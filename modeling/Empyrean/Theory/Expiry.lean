/-
# Empyrean.Theory.Expiry — keys with a time to live

A key that was given a time to live has a deadline.  The store answers for it as long as the
clock is not past the deadline, at the deadline itself too.  The clock may be any linear order:
the millisecond counter of the store, or a finer one that it stands for.

* `Expired` — the deadline has passed.
* `Expiring`, `get` — a value with its deadline, and what a look at the key finds.
* `get_eq_some_iff` — a value is found exactly where its deadline has not passed.
-/
import Mathlib.Order.Lattice

namespace Empyrean.Theory.Expiry

set_option autoImplicit false

variable {T α : Type*} [LinearOrder T]

/-! ## Deadlines -/

def Expired (deadline now : T) : Prop := deadline < now

instance (deadline now : T) : Decidable (Expired deadline now) :=
  inferInstanceAs (Decidable (_ < _))

theorem not_expired_iff {deadline now : T} : ¬ Expired deadline now ↔ now ≤ deadline := not_lt

/-- A key stays expired. -/
theorem Expired.mono {deadline now later : T} (expired : Expired deadline now)
    (after : now ≤ later) : Expired deadline later := lt_of_lt_of_le expired after

/-! ## Values -/

structure Expiring (T α : Type*) where
  value : α
  expiresAt : T

/-- `GET` -/
def get (entry : Option (Expiring T α)) (now : T) : Option α :=
  (entry.filter fun e => !decide (Expired e.expiresAt now)).map (·.value)

theorem get_eq_some_iff {entry : Option (Expiring T α)} {now : T} {value : α} :
    get entry now = some value ↔ ∃ e, entry = some e ∧ now ≤ e.expiresAt ∧ e.value = value := by
  simp only [get, Option.map_eq_some_iff, Option.filter_eq_some_iff, Bool.not_eq_true',
    decide_eq_false_iff_not, not_expired_iff, and_assoc]

end Empyrean.Theory.Expiry
