import Mathlib.Logic.Basic

/-!
# Two implementations side by side

`Along f g P`: in a run of `f` and `g` on the same calls, `P` holds of the two states before every
call. `along_iff` reduces an equivalence about whole runs to one about a single call, under an
invariant of the two states. `Throughout` and `throughout_iff` are the same for a run of `f` alone.
-/

set_option autoImplicit false

namespace Lockstep

variable {σ τ ι : Type} {f : σ → ι → σ} {g : τ → ι → τ}

/-- `P` holds at each step of two runs on the same inputs. -/
def Along (f : σ → ι → σ) (g : τ → ι → τ) (P : σ → τ → ι → Prop) : List ι → σ → τ → Prop
  | [], _, _ => True
  | i :: is, s, t => P s t i ∧ Along f g P is (f s i) (g t i)

/-- What is equivalent for each call, as long as the calls meet `C`, is equivalent for a run. -/
theorem along_iff {I : σ → τ → Prop} {P C : σ → τ → ι → Prop}
    (hiff : ∀ s t i, I s t → (P s t i ↔ C s t i))
    (hkeep : ∀ s t i, I s t → C s t i → I (f s i) (g t i)) :
    ∀ (is : List ι) (s : σ) (t : τ), I s t → (Along f g P is s t ↔ Along f g C is s t)
  | [], _, _, _ => Iff.rfl
  | i :: is, s, t, h => by
    have hcall := hiff s t i h
    constructor
    · intro hp
      have hc := hcall.1 hp.1
      exact ⟨hc, (along_iff hiff hkeep is _ _ (hkeep s t i h hc)).1 hp.2⟩
    · intro hc
      exact ⟨hcall.2 hc.1, (along_iff hiff hkeep is _ _ (hkeep s t i h hc.1)).2 hc.2⟩

/-- In a run of `f`, `P` holds before every call. -/
def Throughout (f : σ → ι → σ) (P : σ → ι → Prop) (is : List ι) (s : σ) : Prop :=
  Along f (fun (_ : Unit) _ => ()) (fun s _ i => P s i) is s ()

/-- The last call of a run. -/
theorem Throughout.last {P : σ → ι → Prop} {i : ι} {is : List ι} {s : σ}
    (h : Throughout f P (is ++ [i]) s) : P (is.foldl f s) i := by
  induction is generalizing s with
  | nil => exact h.1
  | cons j is ih => exact ih h.2

theorem throughout_iff {I : σ → Prop} {P C : σ → ι → Prop}
    (hiff : ∀ s i, I s → (P s i ↔ C s i)) (hkeep : ∀ s i, I s → C s i → I (f s i))
    (is : List ι) (s : σ) (h : I s) : Throughout f P is s ↔ Throughout f C is s :=
  along_iff (I := fun s _ => I s) (fun s _ i => hiff s i) (fun s _ i => hkeep s i) is s () h

end Lockstep
