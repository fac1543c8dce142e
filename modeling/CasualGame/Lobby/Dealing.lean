import Mathlib.Data.List.Count
import CasualGame.Lobby.Types

/-!
The deck shared by all rooms: how a round initialises and shuffles it, and how it
is dealt.
-/

namespace CasualGame.Lobby.Dealing

open Deck

/-- `std::vector::resize`: new elements are `0`. -/
def resize (n : Nat) (cards : List Card) : List Card :=
  cards.take n ++ List.replicate (n - cards.length) 0

def setCard (cards : List Card) (i : Nat) (card : Card) : Except Fault (List Card) :=
  if i < cards.length then .ok (cards.set i card) else .error .outOfBounds

/-- `for (i = 0; i < n; ++i) cards[i] = i + off`. -/
def fill (n off : Nat) (cards : List Card) : Except Fault (List Card) :=
  (List.range n).foldlM (fun cards i => setCard cards i (i + off)) cards

/-- `GP_65` only reserves capacity, which leaves the size as it is, and the second
loop starts again at index `0`. -/
def initDeck (playType : PlayType) (cards : List Card) : Except Fault (List Card) :=
  match playType with
  | .gp52 => fill 52 1 (resize 52 cards)
  | .gp65 => do
      let cards ← fill 52 1 cards
      fill 13 40 cards

/-- What one call of `std::shuffle` does to a vector: any permutation, depending on
the state of the generator. -/
structure Shuffle where
  run : List Card → List Card
  perm : ∀ cards, (run cards).Perm cards

def Shuffle.id : Shuffle := ⟨fun cards => cards, fun _ => List.Perm.refl _⟩

def dealHand (deck : List Card) (index : Nat) : Except Fault Hand :=
  if h : index + 13 ≤ deck.length then
    .ok ⟨(deck.drop index).take 13, by simp only [List.length_take, List.length_drop]; omega⟩
  else .error .outOfBounds

def sortHand (hand : Hand) : Hand :=
  ⟨hand.1.insertionSort (· ≤ ·), by simp [hand.2]⟩

def nominalDeck : PlayType → List Card
  | .gp52 => List.range' 1 52
  | .gp65 => List.range' 1 52 ++ List.range' 40 13

/-- Initialisation writes inside the vector and leaves, after any shuffle, the deck
of the play type. -/
def DeckComposed (playType : PlayType) (prior : List Card) : Prop :=
  ∃ cards, initDeck playType prior = .ok cards ∧
    ∀ shuffle : Shuffle, (shuffle.run cards).Perm (nominalDeck playType)

theorem length_resize (n : Nat) (cards : List Card) : (resize n cards).length = n := by
  simp only [resize, List.length_append, List.length_take, List.length_replicate]
  omega

theorem fill_eq (n off : Nat) (cards : List Card) :
    fill n off cards =
      if n ≤ cards.length then .ok (List.range' off n ++ cards.drop n)
      else .error .outOfBounds := by
  induction n with
  | zero => simp [fill]; rfl
  | succ n ih =>
      have hlast : fill (n + 1) off cards =
          fill n off cards >>= fun cards => setCard cards n (n + off) := by
        simp only [fill, List.range_succ, List.foldlM_append, List.foldlM_cons, List.foldlM_nil,
          bind_pure]
      rw [hlast, ih]
      by_cases hn : n ≤ cards.length
      · rw [if_pos hn]
        show setCard (List.range' off n ++ cards.drop n) n (n + off) = _
        by_cases hn' : n < cards.length
        · have hset : (List.range' off n ++ cards.drop n).set n (n + off) =
              List.range' off n ++ (n + off) :: cards.drop (n + 1) := by
            rw [List.set_append_right _ _ (by simp), List.length_range', Nat.sub_self,
              List.drop_eq_getElem_cons hn', List.set_cons_zero]
          rw [setCard, if_pos (by simp; omega), if_pos (by omega), hset, List.range'_concat]
          simp [Nat.add_comm]
        · rw [setCard, if_neg (by simp; omega), if_neg (by omega)]
      · rw [if_neg hn, if_neg (by omega)]
        rfl

theorem initDeck_gp52 (prior : List Card) : initDeck .gp52 prior = .ok (List.range' 1 52) := by
  rw [initDeck, fill_eq, length_resize, if_pos le_rfl,
    List.drop_eq_nil_of_le (length_resize 52 prior).le, List.append_nil]

theorem initDeck_gp65 (prior : List Card) :
    initDeck .gp65 prior =
      if 52 ≤ prior.length then .ok (List.range' 40 13 ++ List.range' 14 39 ++ prior.drop 52)
      else .error .outOfBounds := by
  have hdrop : (List.range' 1 52).drop 13 = List.range' 14 39 := by decide
  simp only [initDeck, fill_eq, bind, Except.bind]
  by_cases h : 52 ≤ prior.length
  · simp only [h, if_true]
    rw [if_pos (by simp; omega), List.drop_append_of_le_length (by simp), hdrop,
      List.append_assoc]
  · simp only [h, if_false]

theorem length_initDeck {playType : PlayType} {prior cards : List Card}
    (h : initDeck playType prior = .ok cards) :
    cards.length = 52 ∨ playType = .gp65 ∧ cards.length = prior.length := by
  cases playType with
  | gp52 =>
      rw [initDeck_gp52] at h
      cases h
      exact Or.inl rfl
  | gp65 =>
      rw [initDeck_gp65] at h
      split_ifs at h with hlen
      cases h
      refine Or.inr ⟨rfl, ?_⟩
      simp only [List.length_append, List.length_range', List.length_drop]
      omega

theorem initDeck_inRange {playType : PlayType} {prior cards : List Card}
    (hprior : prior.length = 0 ∨ prior.length = 52) (h : initDeck playType prior = .ok cards) :
    cards.length = 52 ∧ ∀ card ∈ cards, InRange card := by
  cases playType with
  | gp52 =>
      rw [initDeck_gp52] at h
      cases h
      exact ⟨rfl, by decide⟩
  | gp65 =>
      rw [initDeck_gp65] at h
      split_ifs at h with hlen
      cases h
      have hrest : prior.drop 52 = [] := List.drop_eq_nil_of_le (by omega)
      rw [hrest]
      exact ⟨rfl, by decide⟩

theorem dealHand_mem {deck : List Card} {index : Nat} {hand : Hand}
    (h : dealHand deck index = .ok hand) : ∀ card ∈ hand.1, card ∈ deck := by
  rw [dealHand] at h
  split_ifs at h
  cases h
  intro card hcard
  exact List.mem_of_mem_drop (List.mem_of_mem_take hcard)

theorem sortHand_perm (hand : Hand) : (sortHand hand).1.Perm hand.1 :=
  List.perm_insertionSort _ _

theorem perm_of_shuffles {cards deck : List Card} :
    (∀ shuffle : Shuffle, (shuffle.run cards).Perm deck) ↔ cards.Perm deck := by
  constructor
  · intro h
    exact h Shuffle.id
  · intro h shuffle
    exact (shuffle.perm cards).trans h

/-- The deck is right for `GP_52` whatever it held before, and for `GP_65` only when
it already had 65 cards and the last thirteen were the diamonds. -/
theorem deckComposed_iff (playType : PlayType) (prior : List Card) :
    DeckComposed playType prior ↔
      playType = .gp52 ∨ prior.length = 65 ∧ (prior.drop 52).Perm (List.range' 1 13) := by
  simp only [DeckComposed, perm_of_shuffles]
  cases playType with
  | gp52 =>
      simp only [true_or, iff_true]
      exact ⟨_, initDeck_gp52 prior, List.Perm.refl _⟩
  | gp65 =>
      have hdeck : (List.range' 40 13 ++ List.range' 14 39 ++ prior.drop 52).Perm
          (nominalDeck .gp65) ↔ (prior.drop 52).Perm (List.range' 1 13) := by
        have hnominal : (nominalDeck .gp65).Perm
            (List.range' 40 13 ++ List.range' 14 39 ++ List.range' 1 13) := by
          decide
        exact ⟨fun h => (List.perm_append_left_iff _).mp (h.trans hnominal),
          fun h => ((List.perm_append_left_iff _).mpr h).trans hnominal.symm⟩
      simp only [initDeck_gp65, reduceCtorEq, false_or]
      constructor
      · rintro ⟨cards, hcards, hperm⟩
        split_ifs at hcards with hlen
        cases hcards
        have hrest := hdeck.mp hperm
        have := hrest.length_eq
        simp only [List.length_drop, List.length_range'] at this
        exact ⟨by omega, hrest⟩
      · rintro ⟨hlen, hrest⟩
        exact ⟨_, if_pos (by omega), hdeck.mpr hrest⟩

/-- After a round of `GP_52` the deck of a `GP_65` room has 52 cards and no diamond. -/
theorem diamonds_overwritten :
    ¬ ∀ (playType : PlayType) (prior : List Card), DeckComposed playType prior := by
  intro hall
  obtain ⟨cards, hcards, hperm⟩ := hall .gp65 (List.range' 1 52)
  have hlen := (perm_of_shuffles.mp hperm).length_eq
  rcases length_initDeck hcards with h | ⟨-, h⟩
  · rw [h] at hlen
    cases hlen
  · rw [h] at hlen
    cases hlen

end CasualGame.Lobby.Dealing
