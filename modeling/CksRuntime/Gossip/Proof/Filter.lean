import CksRuntime.Gossip.Filter

/-!
# The filter keeps a window of what it has let in

`GossipFilter` against the reference that remembers every sequence number: each call of a run
leaves, for each sender, the window of all that was let in (`Keeps.check`, `Keeps.run`), so the
last check decides as the reference does (`accepted_iff_fresh`).
-/

set_option autoImplicit false

namespace CksRuntime

open ReplayWindow

namespace GossipFilter

variable (f : GossipFilter)

/-! ## The last check -/

/-- The filter with another window for the sender. -/
def withWindow (sender : Text) (w : Window Int) : GossipFilter :=
  { f with
    lastSeq := Function.update f.lastSeq sender w.high
    seenSeq := Function.update f.seenSeq sender w.seen }

theorem window_withWindow (sender : Text) (w : Window Int) (s : Text) :
    (f.withWindow sender w).window s = if s = sender then w else f.window s := by
  by_cases hs : s = sender
  · subst hs
    simp [window, withWindow]
  · simp [window, withWindow, hs]

/-- A sender without a highest number reads as one that has let in `-1`. -/
theorem rejects_iff (sender : Text) {seq : Int} (hseq : 0 ≤ seq) :
    seq ≤ (f.lastSeq sender).getD (-1) - f.maxSeqReorderWindow ∨ seq ∈ f.seenSeq sender ↔
      ¬(f.window sender).Admits f.maxSeqReorderWindow seq := by
  have hpos := f.window_pos
  unfold Window.Admits window
  cases f.lastSeq sender with
  | none =>
    simp
    omega
  | some m =>
    simp only [Option.getD_some, Option.mem_some_iff, forall_eq', not_and_or, not_lt, not_not]

theorem raise_window (sender : Text) {seq : Int} (hseq : 0 ≤ seq) :
    (if seq > (f.lastSeq sender).getD (-1) then seq else (f.lastSeq sender).getD (-1)) =
      (f.window sender).raise seq := by
  unfold Window.raise window
  cases f.lastSeq sender with
  | none =>
    simp
    omega
  | some m =>
    simp [max_def]
    omega

theorem checkSequence_of_admits {sender : Text} {seq : Int} (hseq : 0 ≤ seq)
    (h : (f.window sender).Admits f.maxSeqReorderWindow seq) :
    f.checkSequence sender (some seq) =
      (true, f.withWindow sender ((f.window sender).push f.maxSeqReorderWindow seq)) := by
  have hneg : ¬seq < 0 := by omega
  have hnot := mt (f.rejects_iff sender hseq).1 (not_not.2 h)
  simp only [checkSequence, if_neg hneg, if_neg hnot, f.raise_window sender hseq]
  rfl

/-- What is not a number from zero on, or is not admitted, changes nothing. -/
theorem checkSequence_of_not {sender : Text} {seqNo : IntArg}
    (h : ∀ seq ∈ seqNo, 0 ≤ seq → ¬(f.window sender).Admits f.maxSeqReorderWindow seq) :
    f.checkSequence sender seqNo = (false, f) := by
  cases seqNo with
  | none => rfl
  | some seq =>
    by_cases hneg : seq < 0
    · simp [checkSequence, hneg]
    · have hseq : 0 ≤ seq := by omega
      have hcond := (f.rejects_iff sender hseq).2 (h seq rfl hseq)
      simp only [checkSequence, if_neg hneg, if_pos hcond]

theorem checkSequence_iff {sender : Text} {seq : Int} (hseq : 0 ≤ seq) :
    (f.checkSequence sender (some seq)).1 = true ↔
      (f.window sender).Admits f.maxSeqReorderWindow seq := by
  constructor
  · intro h
    by_contra hnot
    rw [f.checkSequence_of_not (by rintro _ ⟨⟩ -; exact hnot)] at h
    cases h
  · intro h
    rw [f.checkSequence_of_admits hseq h]

/-! ## One call -/

/-- The filter when a call comes to its sequence number. -/
def afterNonce (c : Call) : GossipFilter :=
  c.nonce.elim f fun nonce => (f.checkNonce c.sender nonce).2

theorem checkNonce_window (sender nonce : Text) (s : Text) :
    (f.checkNonce sender nonce).2.window s = f.window s := by
  unfold checkNonce
  dsimp only
  split <;> rfl

theorem checkNonce_width (sender nonce : Text) :
    (f.checkNonce sender nonce).2.maxSeqReorderWindow = f.maxSeqReorderWindow := by
  unfold checkNonce
  dsimp only
  split <;> rfl

theorem afterNonce_window (c : Call) (s : Text) : (f.afterNonce c).window s = f.window s := by
  unfold afterNonce
  cases c.nonce with
  | none => rfl
  | some nonce => exact f.checkNonce_window c.sender nonce s

theorem afterNonce_width (c : Call) :
    (f.afterNonce c).maxSeqReorderWindow = f.maxSeqReorderWindow := by
  unfold afterNonce
  cases c.nonce with
  | none => rfl
  | some nonce => exact f.checkNonce_width c.sender nonce

theorem check_of_passes {c : Call} (h : f.PassesOthers c) :
    f.check c = match c.seqNo with
      | none => (true, f.afterNonce c)
      | some seqNo => (f.afterNonce c).checkSequence c.sender seqNo := by
  obtain ⟨htime, hnonce⟩ := h
  unfold check afterNonce
  simp only [htime, not_true_eq_false, if_false]
  cases hc : c.nonce with
  | none => cases c.seqNo <;> rfl
  | some nonce =>
    have := hnonce nonce hc
    cases c.seqNo <;> simp [this]

/-- A call that another check rejects leaves the windows alone. -/
theorem check_of_not {c : Call} (h : ¬f.PassesOthers c) :
    (f.check c).1 = false ∧ (f.check c).2.maxSeqReorderWindow = f.maxSeqReorderWindow ∧
      ∀ s, (f.check c).2.window s = f.window s := by
  unfold check
  by_cases htime : f.passesTime c = true
  · cases hc : c.nonce with
    | none => exact absurd ⟨htime, by simp [hc]⟩ h
    | some nonce =>
      have hnonce : (f.checkNonce c.sender nonce).1 = false := by
        rw [← Bool.not_eq_true]
        intro hn
        exact h ⟨htime, by simpa [hc] using hn⟩
      simp [htime, hnonce, checkNonce_width, checkNonce_window]
  · simp [htime]

/-- A call that lets a number in pushes it on its sender's window, and any other call leaves the
windows alone. -/
theorem check_window (c : Call) (s : Text) :
    (f.check c).2.maxSeqReorderWindow = f.maxSeqReorderWindow ∧
      ((f.letsIn c s = [] ∧ (f.check c).2.window s = f.window s) ∨
        ∃ seq, f.letsIn c s = [seq] ∧ (f.window s).Admits f.maxSeqReorderWindow seq ∧
          (f.check c).2.window s = (f.window s).push f.maxSeqReorderWindow seq) := by
  by_cases hpass : f.PassesOthers c
  · cases hseqNo : c.seqNo with
    | none => simp [check_of_passes f hpass, letsIn, hseqNo, afterNonce_window, afterNonce_width]
    | some seqNo =>
      set g := f.afterNonce c with hg
      have hcheck : f.check c = g.checkSequence c.sender seqNo := by
        simp [check_of_passes f hpass, hseqNo, hg]
      have hwidth : g.maxSeqReorderWindow = f.maxSeqReorderWindow := f.afterNonce_width c
      have hwindow : ∀ s, g.window s = f.window s := f.afterNonce_window c
      by_cases hadm : ∃ seq, seqNo = some seq ∧ 0 ≤ seq ∧
          (g.window c.sender).Admits g.maxSeqReorderWindow seq
      · obtain ⟨seq, rfl, hpos, hadm⟩ := hadm
        rw [hcheck, g.checkSequence_of_admits hpos hadm]
        refine ⟨hwidth, ?_⟩
        rw [window_withWindow, hwindow, hwidth]
        rw [hwindow, hwidth] at hadm
        by_cases hs : s = c.sender
        · subst hs
          refine .inr ⟨seq, ?_, hadm, by simp⟩
          simp [letsIn, hseqNo, hcheck, g.checkSequence_of_admits hpos (by rwa [hwindow, hwidth])]
        · refine .inl ⟨?_, by simp [hs, hwindow]⟩
          simp [letsIn, hseqNo, Ne.symm hs]
      · have hnot : g.checkSequence c.sender seqNo = (false, g) := by
          refine g.checkSequence_of_not ?_
          intro seq hseq hpos hadm'
          exact hadm ⟨seq, hseq, hpos, hadm'⟩
        rw [hcheck, hnot]
        refine ⟨hwidth, .inl ⟨?_, hwindow s⟩⟩
        cases seqNo <;> simp [letsIn, hseqNo, hcheck, hnot]
  · obtain ⟨hfalse, hwidth, hwindow⟩ := f.check_of_not hpass
    refine ⟨hwidth, .inl ⟨?_, hwindow s⟩⟩
    unfold letsIn
    split <;> simp [hfalse]

/-! ## Runs -/

/-- Each sender's window is that of what has been let in from it, nothing of it twice. -/
structure Keeps (accepted : Text → List Int) : Prop where
  tracks : ∀ s, Tracks f.maxSeqReorderWindow (f.window s) (accepted s)
  nodup : ∀ s, (accepted s).Nodup

variable {f}

theorem Keeps.check {accepted : Text → List Int} (h : f.Keeps accepted) (c : Call) :
    (f.check c).2.Keeps (fun s => f.letsIn c s ++ accepted s) := by
  have hstep (s : Text) : Tracks f.maxSeqReorderWindow ((f.check c).2.window s)
      (f.letsIn c s ++ accepted s) ∧ (f.letsIn c s ++ accepted s).Nodup := by
    obtain ⟨-, ⟨hin, hwindow⟩ | ⟨seq, hin, hadm, hwindow⟩⟩ := f.check_window c s
    · rw [hin, hwindow]
      exact ⟨h.tracks s, h.nodup s⟩
    · have hfresh := (h.tracks s).admits_iff.1 hadm
      rw [hin, hwindow]
      exact ⟨(h.tracks s).push hfresh, List.nodup_cons.2 ⟨hfresh.1, h.nodup s⟩⟩
  refine ⟨fun s => ?_, fun s => (hstep s).2⟩
  rw [(f.check_window c s).1]
  exact (hstep s).1

theorem Keeps.run (calls : List Call) {f : GossipFilter} {accepted : Text → List Int}
    (h : f.Keeps accepted) :
    (f.run calls).Keeps (fun s => f.accepted calls s ++ accepted s) ∧
      (f.run calls).maxSeqReorderWindow = f.maxSeqReorderWindow := by
  induction calls generalizing f accepted with
  | nil => exact ⟨h, rfl⟩
  | cons c calls ih =>
    obtain ⟨hkeeps, hwidth⟩ := ih (h.check c)
    refine ⟨?_, hwidth.trans (f.check_window c []).1⟩
    simpa [GossipFilter.accepted, GossipFilter.run] using hkeeps

theorem keeps_new (maxClockSkewMs maxNonceCache maxSeqReorderWindow : Int) :
    (new maxClockSkewMs maxNonceCache maxSeqReorderWindow).Keeps (fun _ => []) where
  tracks _ := tracks_empty
  nodup _ := List.nodup_nil

/-- After any calls, a well-formed sequence number that passes the other checks is let in exactly
when it never was before and is less than a window behind all that were. So none is let in twice,
and no more numbers are kept of a sender than the window is wide. -/
theorem accepted_iff_fresh (maxClockSkewMs maxNonceCache maxSeqReorderWindow : Int)
    (calls : List Call) :
    let f := new maxClockSkewMs maxNonceCache maxSeqReorderWindow
    (∀ c seq, c.seqNo = some (some seq) → 0 ≤ seq → (f.run calls).PassesOthers c →
      (((f.run calls).check c).1 = true ↔
        Fresh f.maxSeqReorderWindow (f.accepted calls c.sender) seq)) ∧
    ∀ sender, (f.accepted calls sender).Nodup ∧
      (((f.run calls).seenSeq sender).length : Int) ≤ f.maxSeqReorderWindow := by
  intro f
  obtain ⟨hkeeps, hwidth⟩ := (keeps_new maxClockSkewMs maxNonceCache maxSeqReorderWindow).run calls
  simp only [List.append_nil] at hkeeps
  constructor
  · intro c seq hseqNo hpos hpass
    have htracks := hkeeps.tracks c.sender
    rw [check_of_passes _ hpass, hseqNo]
    show (checkSequence _ c.sender (some seq)).1 = true ↔ _
    rw [checkSequence_iff _ hpos, afterNonce_window, afterNonce_width, htracks.admits_iff, hwidth]
  · intro sender
    refine ⟨hkeeps.nodup sender, ?_⟩
    have hlen := (hkeeps.tracks sender).length_le (f.run calls).window_pos.le
    rwa [hwidth] at hlen

/-- A call from one sender at time zero. -/
def numbered (seq : Int) : Call where
  senderReplicaId := ['r']
  nonce := none
  seqNo := some (some seq)
  timestampMs := some (some 0)
  nowMs := 0

theorem accepted_iff_fresh_reordered :
    (((new 10 10 4).run [numbered 7, numbered 4, numbered 9]).check (numbered 6)).1 = true ∧
      ((new 10 10 4).accepted [numbered 7, numbered 4, numbered 9] ['r']).Nodup := by
  have h := accepted_iff_fresh 10 10 4 [numbered 7, numbered 4, numbered 9]
  refine ⟨(h.1 (numbered 6) 6 rfl (by decide) ⟨by decide, by simp [numbered]⟩).2 ?_, (h.2 ['r']).1⟩
  constructor <;> decide

end GossipFilter

end CksRuntime
