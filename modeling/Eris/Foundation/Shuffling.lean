import Eris.Foundation.Drawing

/-!
# Shuffles and their draws

A shuffle draws one number for every place but the first.  It factors into
the draws, which do not depend on the list, and the arrangement which they
decide, which does not depend on the stream.  On a list of different elements
the arrangements of all draws are the permutations, each of them once.
-/

namespace Eris.Foundation

variable {Failure Stream Item : Type}

/-- One number for each place down to the second, below one more than it. -/
def Draws : ℕ → Type
  | 0 => Unit
  | place + 1 => Fin (place + 2) × Draws place

instance drawsFintype : (place : ℕ) → Fintype (Draws place)
  | 0 => inferInstanceAs (Fintype Unit)
  | place + 1 =>
      let _ := drawsFintype place
      inferInstanceAs (Fintype (Fin (place + 2) × Draws place))

theorem card_draws (place : ℕ) :
    Fintype.card (Draws place) = (place + 1).factorial := by
  induction place with
  | zero => rfl
  | succ place ih =>
      have product : Fintype.card (Draws (place + 1)) =
            Fintype.card (Fin (place + 2) × Draws place) :=
        rfl
      rw [product, Fintype.card_prod, Fintype.card_fin, ih]
      rfl

def drawNumbers (draw : Draw Failure Stream) :
    (place : ℕ) → Stream → Except Failure (Draws place × Stream)
  | 0, stream => .ok ((), stream)
  | place + 1, stream => do
      let (other, rest) ← draw (place + 2) stream
      let (others, last) ← drawNumbers draw place rest
      return ((other, others), last)

def arrange : (place : ℕ) → Draws place → List Item → List Item
  | 0, _, items => items
  | place + 1, draws, items =>
      arrange place draws.2 (exchange items (place + 1) draws.1)

theorem shuffleDown_eq
    (draw : Draw Failure Stream) (place : ℕ) (items : List Item)
    (stream : Stream) :
    shuffleDown draw place items stream =
      (drawNumbers draw place stream).map fun drawn =>
        (arrange place drawn.1 items, drawn.2) := by
  induction place generalizing items stream with
  | zero => rfl
  | succ place ih =>
      rw [shuffleDown, drawNumbers]
      cases draw (place + 2) stream with
      | error failure => rfl
      | ok first =>
          change shuffleDown draw place (exchange items (place + 1) first.1)
              first.2 =
            _
          rw [ih]
          cases numbers : drawNumbers draw place first.2 with
          | error failure => simp [numbers, bind, Except.bind, Except.map]
          | ok others =>
              simp [numbers, bind, Except.bind, Except.map, arrange, pure,
                Except.pure]

variable {items : List Item} {first second place : ℕ}

theorem exchange_length :
    (exchange items first second).length = items.length :=
  (exchange_perm items first second).length_eq

theorem exchange_first
    (inside : first < items.length) (other : second < items.length) :
    (exchange items first second)[first]? = items[second]? := by
  rw [exchange, List.getElem?_eq_getElem inside, List.getElem?_eq_getElem other]
  dsimp only
  rw [List.getElem?_set]
  split_ifs with same bound
  · subst same
    rfl
  · exact absurd inside (by simpa [same] using bound)
  · rw [List.getElem?_set_self inside]

theorem exchange_other
    {index : ℕ} (notFirst : index ≠ first) (notSecond : index ≠ second) :
    (exchange items first second)[index]? = items[index]? := by
  rw [exchange]
  split
  · rw [List.getElem?_set_ne notSecond.symm, List.getElem?_set_ne notFirst.symm]
  · rfl

theorem arrange_above
    {index : ℕ} (draws : Draws place) (above : place < index) :
    (arrange place draws items)[index]? = items[index]? := by
  induction place generalizing items with
  | zero => rfl
  | succ place ih =>
      have drawn : (draws.1 : ℕ) < place + 2 := draws.1.isLt
      rw [arrange, ih draws.2 (by omega), exchange_other (by omega) (by omega)]

theorem arrange_perm (draws : Draws place) :
    (arrange place draws items).Perm items := by
  induction place generalizing items with
  | zero => exact List.Perm.refl items
  | succ place ih =>
      exact (ih draws.2).trans (exchange_perm _ _ _)

theorem arrange_injective
    (distinct : items.Nodup) (inside : place < items.length ∨ place = 0) :
    Function.Injective fun draws : Draws place => arrange place draws items := by
  induction place generalizing items with
  | zero =>
      intro one other _
      rfl
  | succ place ih =>
      rintro ⟨drawn, draws⟩ ⟨otherDrawn, otherDraws⟩ same
      have bound : place + 1 < items.length := by
        omega
      have last : ∀ (number : Fin (place + 2)) (numbers : Draws place),
          (arrange (place + 1) (number, numbers) items)[place + 1]? =
            items[(number : ℕ)]? := by
        intro number numbers
        have small : (number : ℕ) < items.length :=
          (Nat.lt_of_lt_of_le number.isLt bound)
        have unfolded : arrange (place + 1) (number, numbers) items =
              arrange place numbers (exchange items (place + 1) number) :=
          rfl
        rw [unfolded, arrange_above numbers (Nat.lt_succ_self place),
          exchange_first bound small]
      have equal : items[(drawn : ℕ)]? = items[(otherDrawn : ℕ)]? := by
        rw [← last drawn draws, ← last otherDrawn otherDraws]
        exact congrArg (·[place + 1]?) same
      have sameNumber : drawn = otherDrawn := by
        have small : (drawn : ℕ) < items.length :=
          (Nat.lt_of_lt_of_le drawn.isLt bound)
        exact Fin.ext (List.getElem?_inj small distinct |>.1 equal)
      subst sameNumber
      have exchanged : (exchange items (place + 1) drawn).Nodup :=
        (exchange_perm _ _ _).nodup_iff.2 distinct
      have sameNumbers : draws = otherDraws := ih exchanged
          (Or.inl (by rw [exchange_length]; omega)) same
      rw [sameNumbers]

def permutationOf (items : List Item) (draws : Draws (items.length - 1)) :
    { others : List Item // others.Perm items } :=
  ⟨arrange (items.length - 1) draws items, arrange_perm draws⟩

/-- The draws of a list of different elements are as many as its permutations
and stand for each of them once. -/
theorem permutationOf_bijective (distinct : items.Nodup) :
    Function.Bijective (permutationOf items) := by
  classical
  have members : ∀ others : List Item,
      others ∈ items.permutations.toFinset ↔ others.Perm items := by
    intro others
    rw [List.mem_toFinset, List.mem_permutations]
  let _ : Fintype { others : List Item // others.Perm items } :=
    Fintype.subtype items.permutations.toFinset members
  rw [Fintype.bijective_iff_injective_and_card]
  constructor
  · intro one other same
    have inside : items.length - 1 < items.length ∨ items.length - 1 = 0 := by
      omega
    exact arrange_injective distinct inside (congrArg Subtype.val same)
  · rw [card_draws, Fintype.card_of_subtype _ members,
      List.toFinset_card_of_nodup (List.nodup_permutations items distinct),
      List.length_permutations]
    cases items with
    | nil => rfl
    | cons item rest => rfl

end Eris.Foundation
