/-
# Orders by keys

Records are compared column by column.  Such an order is lawful when the columns determine the
record.

## Key results

* `eq_of_compareOn` — values that compare as equal by a key have equal keys.
* `compare_text_eq_lt_iff` — texts are compared as `<` orders them.
-/
import Std.Data.TreeSet.Basic

namespace Delegation

open Std

/-- Values that compare as equal by a key have equal keys. -/
theorem eq_of_compareOn {α κ : Type} [Ord κ] [LawfulEqOrd κ] {key : α → κ} {a b : α}
    (h : compareOn key a b = .eq) : key a = key b := LawfulEqOrd.eq_of_compare h

theorem compare_text_eq_lt_iff {s t : String} : compare s t = .lt ↔ s < t :=
  compareOfLessAndEq_eq_lt

end Delegation
