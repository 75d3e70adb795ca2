import CksRuntime.Gossip.SeqNo

/-!
# A number is returned once

As long as no crash falls between the truncation of the file and the end of its filling, the file is
what the counters wrote over what was there at first (`Inv.intact`), so each number is above all
that were returned for its replica id. The lock carries the proof: whoever is not idle holds it, so
at most one counter is.
-/

set_option autoImplicit false

namespace CksRuntime

open Transition

namespace SeqNoWorld

section
variable {ι : Type} {w : SeqNoWorld ι} {i j : ι} {c : SeqNoCounter}

/-- The number is above all returned for the replica id. -/
def Above (w : SeqNoWorld ι) (replicaId : String) (value : Int) : Prop :=
  ∀ v, (replicaId, v) ∈ w.returned → v < value

/-- What holds of a counter by where it is. -/
def PhaseInv (w : SeqNoWorld ι) (c : SeqNoCounter) : Prop :=
  match c.phase with
  | .idle | .locked => True
  | .writing values | .filling values =>
    values = w.entries.insert c.replicaId c.value ∧ w.Above c.replicaId c.value
  | .filled => w.entries.lookup c.replicaId = some c.value ∧ w.Above c.replicaId c.value

/-- Only the counter that has the lock is busy, and a number it has taken is above all that were
returned. -/
structure Inv (w : SeqNoWorld ι) : Prop where
  holder : ∀ i c, w.counters i = some c → c.phase ≠ .idle → w.lock = some i
  phase : ∀ i c, w.counters i = some c → w.PhaseInv c
  stored : ∀ replicaId v, (replicaId, v) ∈ w.returned → v ≤ SeqNoCounter.onFile replicaId w.entries
  increasing : ∀ replicaId, (w.returnedFor replicaId).Pairwise (· < ·)
  truncated : ∀ i, w.Filling i → w.file = .malformed
  intact : (∀ i, ¬w.Filling i) → w.file.readAll = w.entries

theorem phaseInv_of_idle (h : c.phase = .idle) : w.PhaseInv c := by simp [PhaseInv, h]

/-- While one counter is busy the others are idle. -/
theorem Inv.idle (h : w.Inv) (hi : w.counters i = some c) (hbusy : c.phase ≠ .idle) :
    ∀ j c, j ≠ i → w.counters j = some c → c.phase = .idle := by
  intro j c' hij hj
  by_contra hbusy'
  have hlock := h.holder i c hi hbusy
  rw [h.holder j c' hj hbusy'] at hlock
  exact hij (Option.some.inj hlock)

/-- The counter that holds the lock decides whether the file is being filled. -/
theorem Inv.intact_of_busy (h : w.Inv) (hi : w.counters i = some c) (hbusy : c.phase ≠ .idle)
    (hfill : ∀ values, c.phase ≠ .filling values) : w.file.readAll = w.entries := by
  apply h.intact
  rintro j ⟨c', hj, values, hvalues⟩
  by_cases hij : j = i
  · subst hij
    rw [Option.mem_def, hi] at hj
    cases hj
    exact hfill values hvalues
  · simp [h.idle hi hbusy j c' hij hj] at hvalues

theorem mem_returnedFor {replicaId : String} {v : Int} :
    v ∈ w.returnedFor replicaId ↔ (replicaId, v) ∈ w.returned := by
  simp [returnedFor]

theorem filling_without {dead : ι → Bool} {j : ι} :
    (w.without dead).Filling j ↔ dead j = false ∧ w.Filling j := by
  unfold Filling without
  by_cases hd : dead j <;> simp [hd]

/-- The file of a counter that crashes while filling it had no entry to lose. -/
theorem Inv.crash (h : w.Inv) {dead : ι → Bool} (hdead : w.FillsThrough (.crash dead)) :
    (w.without dead).Inv where
  holder j c hj hbusy := by
    by_cases hd : dead j
    · simp [without, hd] at hj
    · simp only [without, hd, Bool.false_eq_true, if_false] at hj
      simp [without, h.holder j c hj hbusy, hd]
  phase j c hj := by
    by_cases hd : dead j
    · simp [without, hd] at hj
    · simp only [without, hd, Bool.false_eq_true, if_false] at hj
      exact h.phase j c hj
  stored := h.stored
  increasing := h.increasing
  truncated j hj := h.truncated j (filling_without.1 hj).2
  intact hnone := by
    by_cases hfilling : ∃ j, w.Filling j
    · obtain ⟨j, hj⟩ := hfilling
      have hd : dead j := by
        by_contra hd
        exact hnone j (filling_without.2 ⟨by simpa using hd, hj⟩)
      show w.file.readAll = w.entries
      rw [h.truncated j hj, hdead j hd hj, SeqNoFile.readAll]
    · exact h.intact fun j hj => hfilling ⟨j, hj⟩

end

variable {ι : Type} [DecidableEq ι] {w w' : SeqNoWorld ι} {i : ι} {c : SeqNoCounter}

/-! ## One step -/

/-- A counter takes its turn: the others being idle, what is to be shown is about this one, the
numbers returned and the file. -/
theorem inv_setCounter (w : SeqNoWorld ι) (i : ι) (c : SeqNoCounter)
    (hidle : ∀ j c, j ≠ i → w.counters j = some c → c.phase = .idle)
    (hlock : c.phase ≠ .idle → w.lock = some i) (hphase : w.PhaseInv c)
    (hstored : ∀ replicaId v, (replicaId, v) ∈ w.returned →
      v ≤ SeqNoCounter.onFile replicaId w.entries)
    (hincreasing : ∀ replicaId, (w.returnedFor replicaId).Pairwise (· < ·))
    (htruncated : ∀ values, c.phase = .filling values → w.file = .malformed)
    (hintact : (∀ values, c.phase ≠ .filling values) → w.file.readAll = w.entries) :
    (w.setCounter i c).Inv where
  holder j c' hj hbusy := by
    by_cases hij : j = i
    · subst hij
      simp only [setCounter, Function.update_self, Option.some.injEq] at hj
      exact hlock (hj ▸ hbusy)
    · simp only [setCounter, Function.update_of_ne hij] at hj
      -- the others are idle while this one has the lock
      exact absurd (hidle j c' hij hj) hbusy
  phase j c' hj := by
    by_cases hij : j = i
    · subst hij
      simp only [setCounter, Function.update_self, Option.some.injEq] at hj
      exact hj ▸ hphase
    · simp only [setCounter, Function.update_of_ne hij] at hj
      exact phaseInv_of_idle (hidle j c' hij hj)
  stored := hstored
  increasing := hincreasing
  truncated j hj := by
    obtain ⟨c', hj, values, hvalues⟩ := hj
    by_cases hij : j = i
    · subst hij
      simp only [setCounter, Function.update_self, Option.mem_def, Option.some.injEq] at hj
      exact htruncated values (hj ▸ hvalues)
    · simp only [setCounter, Function.update_of_ne hij] at hj
      simp [hidle j c' hij hj] at hvalues
  intact hnone := by
    apply hintact
    intro values hvalues
    exact hnone i ⟨c, by simp [setCounter], values, hvalues⟩

/-- The number taken is above all that were returned, since the file has them. -/
theorem Inv.read (h : w.Inv) (hi : w.counters i = some c) (hc : c.phase = .locked) :
    (w.setCounter i { c with
      value := w.nextValue c
      phase := .writing (w.file.readAll.insert c.replicaId (w.nextValue c)) }).Inv := by
  have hfile : w.file.readAll = w.entries := h.intact_of_busy hi (by simp [hc]) (by simp [hc])
  refine inv_setCounter w i _ (h.idle hi (by simp [hc])) (fun _ => h.holder i c hi (by simp [hc]))
    ⟨by rw [hfile], ?_⟩ h.stored h.increasing (by simp) fun _ => hfile
  intro v hv
  have hle := h.stored c.replicaId v hv
  have hmax := le_max_right c.value (SeqNoCounter.onFile c.replicaId w.entries)
  simp only [nextValue, hfile]
  omega

theorem Inv.fill (h : w.Inv) {values : Dict Int} (hi : w.counters i = some c)
    (hc : c.phase = .filling values) :
    ({ w with
        file := .entries values
        entries := w.entries.insert c.replicaId c.value }.setCounter i
      { c with phase := .filled }).Inv := by
  have hphase := h.phase i c hi
  simp only [PhaseInv, hc] at hphase
  obtain ⟨hvalues, habove⟩ := hphase
  refine inv_setCounter _ i _ (h.idle hi (by simp [hc])) (fun _ => h.holder i c hi (by simp [hc]))
    ⟨Finmap.lookup_insert _, habove⟩ ?_ h.increasing (by simp) fun _ => hvalues
  intro replicaId v hv
  by_cases hr : replicaId = c.replicaId
  · subst hr
    simpa [SeqNoCounter.onFile] using (habove v hv).le
  · simpa [SeqNoCounter.onFile, Finmap.lookup_insert_of_ne _ hr] using h.stored replicaId v hv

theorem Inv.finish (h : w.Inv) (hi : w.counters i = some c) (hc : c.phase = .filled) :
    ({ w with
        lock := none
        returned := w.returned ++ [(c.replicaId, c.value)] }.setCounter i
      { c with phase := .idle }).Inv := by
  have hphase := h.phase i c hi
  simp only [PhaseInv, hc] at hphase
  obtain ⟨hstored, habove⟩ := hphase
  refine inv_setCounter _ i _ (h.idle hi (by simp [hc])) (fun hne => absurd rfl hne)
    (phaseInv_of_idle rfl) ?_ ?_ (by simp) fun _ =>
      h.intact_of_busy hi (by simp [hc]) (by simp [hc])
  · intro replicaId v hv
    rcases List.mem_append.1 hv with hv | hv
    · exact h.stored replicaId v hv
    · simp only [List.mem_singleton, Prod.mk.injEq] at hv
      obtain ⟨rfl, rfl⟩ := hv
      simp [SeqNoCounter.onFile, hstored]
  · intro replicaId
    by_cases hr : c.replicaId = replicaId
    · subst hr
      have hlast : returnedFor { w with
          lock := none
          returned := w.returned ++ [(c.replicaId, c.value)] } c.replicaId =
          w.returnedFor c.replicaId ++ [c.value] := by simp [returnedFor]
      rw [hlast, List.pairwise_append]
      refine ⟨h.increasing c.replicaId, List.pairwise_singleton _ _, ?_⟩
      intro v hv v' hv'
      rw [List.mem_singleton] at hv'
      exact hv' ▸ habove v (mem_returnedFor.1 hv)
    · simpa [returnedFor, hr] using h.increasing replicaId

theorem Inv.construct (h : w.Inv) (hi : w.counters i = none) (hc : c.phase = .idle) :
    (w.setCounter i c).Inv := by
  have hcases (j : ι) (c' : SeqNoCounter) (hj : (w.setCounter i c).counters j = some c')
      (hbusy : c'.phase ≠ .idle) : w.counters j = some c' := by
    by_cases hij : j = i
    · subst hij
      simp only [setCounter, Function.update_self, Option.some.injEq] at hj
      exact absurd hc (hj ▸ hbusy)
    · simpa [setCounter, hij] using hj
  have hfilling (j : ι) : (w.setCounter i c).Filling j ↔ w.Filling j := by
    constructor
    · rintro ⟨c', hj, values, hvalues⟩
      exact ⟨c', hcases j c' hj (by simp [hvalues]), values, hvalues⟩
    · rintro ⟨c', hj, hvalues⟩
      have hij : j ≠ i := fun hij => by
        rw [hij, Option.mem_def, hi] at hj
        cases hj
      exact ⟨c', by simpa [setCounter, hij] using hj, hvalues⟩
  exact {
    holder := fun j c' hj hbusy => h.holder j c' (hcases j c' hj hbusy) hbusy
    phase := fun j c' hj => by
      by_cases hbusy : c'.phase = .idle
      · exact phaseInv_of_idle hbusy
      · exact h.phase j c' (hcases j c' hj hbusy)
    stored := h.stored
    increasing := h.increasing
    truncated := fun j hj => h.truncated j ((hfilling j).1 hj)
    intact := fun hnone => h.intact fun j hj => hnone j ((hfilling j).2 hj) }

theorem inv_step {call : SeqNoCall ι} (h : w.Inv) (hstep : Step w call w')
    (hcall : w.FillsThrough call) : w'.Inv := by
  cases hstep with
  | construct hi _ _ => exact h.construct hi rfl
  | @acquire i c hi hc hlock =>
    have hidle : ∀ j c, w.counters j = some c → c.phase = .idle := by
      intro j c hj
      by_contra hbusy
      simp [h.holder j c hj hbusy] at hlock
    refine inv_setCounter _ i _ (fun j c _ hj => hidle j c hj) (fun _ => rfl) trivial h.stored
      h.increasing (by simp) fun _ => h.intact ?_
    rintro j ⟨c, hj, values, hvalues⟩
    simp [hidle j c hj] at hvalues
  | read hi hc => exact h.read hi hc
  | @truncate i c values hi hc =>
    have hphase := h.phase i c hi
    simp only [PhaseInv, hc] at hphase
    exact inv_setCounter _ i _ (h.idle hi (by simp [hc]))
      (fun _ => h.holder i c hi (by simp [hc])) hphase h.stored h.increasing (fun _ _ => rfl)
      fun hnone => absurd rfl (hnone values)
  | fill hi hc => exact h.fill hi hc
  | finish hi hc => exact h.finish hi hc
  | crash dead => exact h.crash hcall

/-! ## Runs -/

theorem inv_init (h : (system ι).init w) : w.Inv := by
  obtain ⟨-, hcounters, hreturned, hentries⟩ := h
  exact {
    holder := fun i c hi => by simp [hcounters] at hi
    phase := fun i c hi => by simp [hcounters] at hi
    stored := by simp [hreturned]
    increasing := by simp [returnedFor, hreturned]
    truncated := fun i ⟨c, hi, _⟩ => by simp [hcounters] at hi
    intact := fun _ => hentries.symm }

/-- In a run in which no crash falls between the truncation of a file with entries and the end of
its filling, the numbers returned for a replica id increase, so none is returned twice, and a file
that nobody is filling holds what was there at first with each counter's own writes over it. -/
theorem numbers_increase (h : ((system ι).restrict FillsThrough).Reachable w) :
    (∀ replicaId, (w.returnedFor replicaId).Pairwise (· < ·)) ∧
      ((∀ i, ¬w.Filling i) → w.file.readAll = w.entries) := by
  have hinv : w.Inv := by
    refine h.invariant (P := Inv) (fun _ => inv_init) ?_
    rintro _ call _ - hs ⟨hstep, hcall⟩
    exact inv_step hs hstep hcall
  exact ⟨hinv.increasing, hinv.intact⟩

/-! ## Two runs -/

/-- A whole `next` of a counter, nothing else happening. -/
def afterNext (w : SeqNoWorld ι) (i : ι) (c : SeqNoCounter) : SeqNoWorld ι where
  file := .entries (w.file.readAll.insert c.replicaId (w.nextValue c))
  counters := Function.update w.counters i (some { c with value := w.nextValue c, phase := .idle })
  returned := w.returned ++ [(c.replicaId, w.nextValue c)]
  entries := w.entries.insert c.replicaId (w.nextValue c)

theorem reachable_next (h : ((system ι).restrict FillsThrough).Reachable w)
    (hi : w.counters i = some c) (hc : c.phase = .idle) (hlock : w.lock = none) :
    ((system ι).restrict FillsThrough).Reachable (w.afterNext i c) := by
  have hself (w : SeqNoWorld ι) (c : SeqNoCounter) : (w.setCounter i c).counters i = some c := by
    simp [setCounter]
  have hrun := (((((h.step ⟨.acquire hi hc hlock, trivial⟩).step ⟨.read (hself _ _) rfl, trivial⟩).step
    ⟨.truncate (hself _ _) rfl, trivial⟩).step ⟨.fill (hself _ _) rfl, trivial⟩).step
    ⟨.finish (hself _ _) rfl, trivial⟩)
  simpa [setCounter, afterNext, nextValue] using hrun

/-- One counter, on a file that is missing. -/
def counted : SeqNoWorld Unit :=
  ({ file := .missing, entries := ∅ } : SeqNoWorld Unit).setCounter () ⟨"a", 0, .idle⟩

theorem step_construct {v : Int} (hi : w.counters i = none)
    (hv : max 0 (SeqNoCounter.onFile "a" w.file.readAll) = v) :
    Step w (.construct i "a" 0) (w.setCounter i ⟨"a", v, .idle⟩) :=
  hv ▸ .construct hi (by decide) le_rfl

theorem counted_reachable : ((system Unit).restrict FillsThrough).Reachable counted :=
  .step (.init ⟨rfl, fun _ => rfl, rfl, rfl⟩) ⟨step_construct rfl (by decide), trivial⟩

theorem counted_next :
    ((system Unit).restrict FillsThrough).Reachable (counted.afterNext () ⟨"a", 0, .idle⟩) :=
  reachable_next counted_reachable rfl rfl rfl

/-- A crash on the second number, before the truncation: the next counter draws it anew. -/
theorem numbers_increase_crashed :
    ∃ w : SeqNoWorld Unit, w.returnedFor "a" = [1, 2] ∧ (w.returnedFor "a").Pairwise (· < ·) ∧
      w.file.readAll = w.entries := by
  have hself (w : SeqNoWorld Unit) (c : SeqNoCounter) : (w.setCounter () c).counters () = some c := by
    simp [setCounter]
  have hdrawn := (counted_next.step ⟨.acquire (i := ()) (c := ⟨"a", 1, .idle⟩) (by decide) rfl rfl,
    trivial⟩).step ⟨.read (hself _ _) rfl, trivial⟩
  -- nobody is filling the file
  have hcrash := hdrawn.step (l := SeqNoCall.crash fun _ => true)
    ⟨Step.crash fun _ => true, fun i _ hfilling => by
      obtain ⟨c, hc, values, hphase⟩ := hfilling
      cases hc
      cases hphase⟩
  have hagain := hcrash.step ⟨step_construct (i := ()) (v := 1) rfl (by decide), trivial⟩
  have hnext := reachable_next hagain (hself _ _) rfl rfl
  obtain ⟨hincrease, hfile⟩ := numbers_increase hnext
  refine ⟨_, by decide, hincrease "a", hfile fun i hfilling => ?_⟩
  obtain ⟨c, hc, values, hphase⟩ := hfilling
  cases hc
  cases hphase

/-- A crash on the second number, after the truncation: the third call returns the first number
again. -/
theorem number_returned_again :
    ∃ w, (system Unit).Reachable w ∧ w.returnedFor "a" = [1, 1] := by
  have hself (w : SeqNoWorld Unit) (c : SeqNoCounter) : (w.setCounter () c).counters () = some c := by
    simp [setCounter]
  have hcrash := (((counted_next.of_restrict.step (.acquire (i := ()) (c := ⟨"a", 1, .idle⟩)
    (by decide) rfl rfl)).step (.read (hself _ _) rfl)).step
    (.truncate (hself _ _) rfl)).step (.crash fun _ => true)
  have hagain := hcrash.step (step_construct (i := ()) (v := 0) rfl (by decide))
  refine ⟨_, ((((hagain.step (.acquire (hself _ _) rfl rfl)).step (.read (hself _ _) rfl)).step
    (.truncate (hself _ _) rfl)).step (.fill (hself _ _) rfl)).step (.finish (hself _ _) rfl), ?_⟩
  decide

end SeqNoWorld

end CksRuntime
