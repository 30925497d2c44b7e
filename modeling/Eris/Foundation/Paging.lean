import Mathlib

/-!
# Reading a list page by page

A page is a window of a list given by its start and its greatest length.
Consecutive windows of one positive length concatenate to the list.
-/

namespace Eris.Foundation.Paging

variable {Entry : Type}

/-- The window of at most `limit` entries from `start`. -/
def page (entries : List Entry) (start limit : Nat) : List Entry :=
  (entries.drop start).take limit

theorem page_clamped
    (entries : List Entry) (start limit : Nat) :
    page entries start ((if entries.length - start < limit then entries.length
          else start + limit) - start) =
      page entries start limit := by
  split
  · next short =>
      rw [page, page, List.take_of_length_le (by rw [List.length_drop]),
        List.take_of_length_le (by rw [List.length_drop]; exact short.le)]
  · rw [Nat.add_sub_cancel_left]

theorem page_of_length_le
    (entries : List Entry) {start : Nat} (limit : Nat)
    (outside : entries.length ≤ start) :
    page entries start limit = [] := by
  rw [page, List.drop_of_length_le outside, List.take_nil]

theorem flatMap_page_eq_take
    (entries : List Entry) (limit count : Nat) :
    (List.range count).flatMap
        (fun number => page entries (number * limit) limit) =
      entries.take (count * limit) := by
  induction count with
  | zero => simp
  | succ count ih =>
      rw [List.range_succ, List.flatMap_append, ih,
        List.flatMap_singleton, page, Nat.succ_mul, List.take_add]

theorem flatMap_page
    (entries : List Entry) (limit count : Nat)
    (enough : entries.length ≤ count * limit) :
    (List.range count).flatMap
        (fun number => page entries (number * limit) limit) =
      entries := by
  rw [flatMap_page_eq_take, List.take_of_length_le enough]

end Eris.Foundation.Paging
