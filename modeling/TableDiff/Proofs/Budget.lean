import TableDiff.Error
import TableDiff.Proofs.Fallible

/-!
# Computations under a limit of dead ends

A computation that a limit may cut short is a threshold: it takes some number of dead ends to its
answer, and gives that answer under every limit above this number and none below.  Thresholds may be
put in sequence with each other and with computations that know no limit.
-/

namespace TableDiff

variable {α β : Type}

/-- An answer that no limit has cut short. -/
def Conclusive (x : Except MatchError α) : Prop :=
  ∀ e, x = .error e → e.isTooManyPermutations = false

namespace Conclusive

theorem ok (a : α) : Conclusive (.ok a) := by
  intro e h
  cases h

theorem error {e : MatchError} (h : e.isTooManyPermutations = false) :
    Conclusive (.error e : Except MatchError α) := by
  intro e' h'
  cases h'
  exact h

theorem lift (x : Except TableError α) : Conclusive (MatchError.lift x) := by
  cases x with
  | error e => exact .error rfl
  | ok a => exact .ok a

theorem bind {x : Except MatchError α} {f : α → Except MatchError β}
    (hx : Conclusive x) (hf : ∀ a, Conclusive (f a)) : Conclusive (x >>= f) := by
  intro e h
  rcases bind_eq_error_iff.mp h with hx' | ⟨a, _, ha⟩
  · exact hx e hx'
  · exact hf a e ha

theorem mapM {f : α → Except MatchError β} {l : List α} (hf : ∀ a, Conclusive (f a)) :
    Conclusive (l.mapM f) := by
  intro e h
  rcases exists_of_mapM_eq_error h with ⟨a, _, ha⟩
  exact hf a e ha

end Conclusive

/-- The answer of a computation that takes some dead ends, under a limit. -/
def upTo (deadEnds limit : Nat) (x : Except MatchError α) : Except MatchError α :=
  if deadEnds < limit then x else .error (.tooManyPermutations limit)

theorem upTo_of_lt {deadEnds limit : Nat} (h : deadEnds < limit) (x : Except MatchError α) :
    upTo deadEnds limit x = x :=
  if_pos h

theorem upTo_of_le {deadEnds limit : Nat} (h : limit ≤ deadEnds) (x : Except MatchError α) :
    upTo deadEnds limit x = .error (.tooManyPermutations limit) :=
  if_neg (Nat.not_lt.mpr h)

/-- A computation whose limit only decides whether there is time for its answer. -/
def Threshold (f : Nat → Except MatchError α) : Prop :=
  ∃ deadEnds result, Conclusive result ∧ ∀ limit, 0 < limit → f limit = upTo deadEnds limit result

namespace Threshold

theorem const {x : Except MatchError α} (h : Conclusive x) : Threshold fun _ => x := by
  refine ⟨0, x, h, ?_⟩
  intro limit hlimit
  exact (upTo_of_lt hlimit x).symm

theorem ite {p : Prop} [Decidable p] {f g : Nat → Except MatchError α}
    (hf : Threshold f) (hg : Threshold g) :
    Threshold fun limit => if p then f limit else g limit := by
  by_cases hp : p
  · simpa only [if_pos hp] using hf
  · simpa only [if_neg hp] using hg

/-- In a sequence the step with more dead ends decides. -/
theorem bind {f : Nat → Except MatchError α} {g : α → Nat → Except MatchError β}
    (hf : Threshold f) (hg : ∀ a, Threshold (g a)) :
    Threshold fun limit => f limit >>= fun a => g a limit := by
  rcases hf with ⟨first, result, hresult, hf⟩
  cases result with
  | error e =>
      refine ⟨first, .error e, .error (hresult e rfl), ?_⟩
      intro limit hlimit
      dsimp only
      rw [hf limit hlimit]
      by_cases hlt : first < limit
      · rw [upTo_of_lt hlt, upTo_of_lt hlt]
        rfl
      · rw [upTo_of_le (by omega), upTo_of_le (by omega)]
        rfl
  | ok a =>
      rcases hg a with ⟨second, result', hresult', hg⟩
      refine ⟨max first second, result', hresult', ?_⟩
      intro limit hlimit
      dsimp only
      rw [hf limit hlimit]
      by_cases hlt : first < limit
      · rw [upTo_of_lt hlt, ok_bind, hg limit hlimit]
        by_cases hlt' : second < limit
        · rw [upTo_of_lt hlt', upTo_of_lt (by omega)]
        · rw [upTo_of_le (by omega), upTo_of_le (by omega)]
      · rw [upTo_of_le (by omega), upTo_of_le (by omega)]
        rfl

theorem map {f : Nat → Except MatchError α} (hf : Threshold f) (g : α → β) :
    Threshold fun limit => (f limit >>= fun a => pure (g a)) := by
  apply hf.bind
  intro a
  exact const (.ok (g a))

theorem mapM {f : α → Nat → Except MatchError β} (hf : ∀ a, Threshold (f a)) (l : List α) :
    Threshold fun limit => l.mapM fun a => f a limit := by
  induction l with
  | nil => exact const (.ok [])
  | cons a l ih =>
      simp only [List.mapM_cons]
      exact (hf a).bind fun b => ih.map fun bs => b :: bs

/-- Under a limit that does not cut it short, a threshold gives the answer that it gives under every
higher limit. -/
theorem eq_of_conclusive {f : Nat → Except MatchError α} (hf : Threshold f)
    {limit higher : Nat} (hlimit : 0 < limit) (hle : limit ≤ higher)
    (h : Conclusive (f limit)) : f higher = f limit := by
  rcases hf with ⟨deadEnds, result, _, hf⟩
  by_cases hlt : deadEnds < limit
  · rw [hf limit hlimit, hf higher (by omega), upTo_of_lt hlt, upTo_of_lt (by omega)]
  · have hcut := hf limit hlimit
    rw [upTo_of_le (by omega)] at hcut
    have hfalse := h _ hcut
    cases hfalse

end Threshold

end TableDiff
