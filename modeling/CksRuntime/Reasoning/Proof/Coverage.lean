import CksRuntime.Reasoning.Sweeper

/-!
# What the watermark passes over

`nothing_skipped`: in every run of gentle steps each stored session was checked as it is, is still
to be checked, or is at or after the watermark and so returned by a later sweep. The invariant says
besides what a page that will move the watermark has to hold (`Awaits`).
-/

set_option autoImplicit false

namespace CksRuntime

open GrowingPage Transition

variable {c : SweepConfig}

namespace SweepConfig

theorem mem_rowsSince {sessions : Table String Stamp} {watermark : Nat} {r : StampedRow} :
    r ∈ c.rowsSince sessions watermark ↔
      sessions.lookup r.1 = some r.2 ∧ c.Since watermark r.2 := by
  rw [rowsSince, List.mem_filter, decide_eq_true_eq]
  exact and_congr_left fun _ => Table.mem_rows

end SweepConfig

/-- A page that will move the watermark still holds the session, or leaves it after the new one. -/
def SweepPhase.Awaits (c : SweepConfig) (sessionId : String) (r : Stamp) : SweepPhase → Prop
  | .loading startedAt limit page pending batch => page.length < limit.1 →
    sessionId ∈ pending ∨ ⟨sessionId, r.revision⟩ ∈ batch ∨ c.Since startedAt r
  | _ => True

/-- The limits tried are those of the loop, and no page holds more than its query returned. -/
def SweepPhase.Paging (c : SweepConfig) : SweepPhase → Prop
  | .querying _ limit => GrowingPage.ceiling MAX_SWEEP_LIMIT limit = c.ceiling
  | .loading _ limit page pending batch =>
    GrowingPage.ceiling MAX_SWEEP_LIMIT limit = c.ceiling ∧ page.length < c.ceiling ∧
      page.length ≤ limit.1 ∧ batch.length + pending.length ≤ page.length
  | _ => True

/-- The sweep at work does not hold the session, and moves the watermark only past it. -/
def SweepPhase.Without (c : SweepConfig) (sessionId : String) (r : Stamp) : SweepPhase → Prop
  | .idle => True
  | .querying startedAt _ => ¬c.Since startedAt r
  | .loading startedAt _ _ pending batch =>
    ¬c.Since startedAt r ∧ sessionId ∉ pending ∧ ⟨sessionId, r.revision⟩ ∉ batch
  | .processing candidates => ⟨sessionId, r.revision⟩ ∉ candidates

namespace SweepState

/-! ## What a step does -/

/-- The steps one by one, each with the phase it needs. -/
inductive Next (c : SweepConfig) (s : SweepState) : SweepStep → SweepState → Prop
  | write (sessionId : String) (modifiedAt : Nat) :
      Next c s (.write sessionId modifiedAt) (s.write sessionId modifiedAt)
  | remove (sessionId : String) :
      Next c s (.remove sessionId) { s with sessions := s.sessions.erase sessionId }
  | start {now : Nat} (hphase : s.phase = .idle) :
      Next c s (.start now) { s with phase := .querying now c.batchSize }
  | select {startedAt : Nat} {limit : Limit} {order : SessionOrder} {page : List String}
      (hphase : s.phase = .querying startedAt limit)
      (hpage : page = (order.page (c.rowsSince s.sessions s.watermark) limit.1).map (·.1)) :
      Next c s (.select order) { s with phase := .loading startedAt limit page page [] }
  | load {startedAt : Nat} {limit : Limit} {page pending : List String} {batch : List LoadedSession}
      {sessionId : String}
      (hphase : s.phase = .loading startedAt limit page (sessionId :: pending) batch) :
      Next c s .load { s with
        phase := .loading startedAt limit page pending (batch ++ s.load sessionId) }
  | advance {startedAt : Nat} {limit : Limit} {page : List String} {batch : List LoadedSession}
      (hphase : s.phase = .loading startedAt limit page [] batch)
      (hshort : batch.length < limit.1) :
      Next c s .close { s with watermark := startedAt, phase := .processing batch }
  | giveUp {startedAt : Nat} {limit : Limit} {page : List String} {batch : List LoadedSession}
      (hphase : s.phase = .loading startedAt limit page [] batch)
      (hfull : limit.1 ≤ batch.length) (hcap : MAX_SWEEP_LIMIT ≤ limit.1) :
      Next c s .close { s with phase := .processing batch }
  | grow {startedAt : Nat} {limit : Limit} {page : List String} {batch : List LoadedSession}
      (hphase : s.phase = .loading startedAt limit page [] batch)
      (hcap : limit.1 < MAX_SWEEP_LIMIT) :
      Next c s .close { s with phase := .querying startedAt limit.grow }
  | check {session : LoadedSession} {rest : List LoadedSession}
      (hphase : s.phase = .processing (session :: rest)) :
      Next c s .check { s with phase := .processing rest, checked := session :: s.checked }
  | finish (hphase : s.phase = .processing []) : Next c s .finish { s with phase := .idle }
  | fail : Next c s .fail { s with phase := .idle }

theorem next_of_step {s s' : SweepState} {l : SweepStep} (h : s.step c l = some s') :
    Next c s l s' := by
  unfold step at h
  split at h
  · cases h
    exact .write _ _
  · cases h
    exact .remove _
  · cases h
    exact .start ‹_›
  · cases h
    exact .select ‹_› rfl
  · cases h
    exact .load ‹_›
  · split at h
    · cases h
      exact .advance ‹_› ‹_›
    · split at h
      · cases h
        exact .giveUp ‹_› (by omega) ‹_›
      · cases h
        exact .grow ‹_› (by omega)
  · cases h
    exact .check ‹_›
  · cases h
    exact .finish ‹_›
  · cases h
    exact .fail
  · cases h
    exact .fail
  · cases h
    exact .fail
  · cases h

/-! ## What is due -/

theorem due_of_since {s : SweepState} {sessionId : String} {r : Stamp}
    (hfits : (c.rowsSince s.sessions s.watermark).length < c.ceiling)
    (hr : s.sessions.lookup sessionId = some r) (hsince : c.Since s.watermark r) :
    s.Due c sessionId := by
  intro order
  refine List.mem_map.2 ⟨(sessionId, r), ?_, rfl⟩
  rw [mem_drain hfits]
  exact SweepConfig.mem_rowsSince.2 ⟨hr, hsince⟩

/-- A session not at or after the watermark is no longer returned. -/
theorem not_due {s : SweepState} {sessionId : String} {r : Stamp}
    (hr : s.sessions.lookup sessionId = some r) (hbefore : ¬c.Since s.watermark r) :
    ¬s.Due c sessionId := by
  intro hdue
  obtain ⟨row, hrow, rfl⟩ := List.mem_map.1 (hdue fun _ => .stable _)
  rw [drain_page] at hrow
  obtain ⟨hlookup, hsince⟩ := SweepConfig.mem_rowsSince.1 (RowOrder.mem_of_mem_page hrow)
  rw [hr] at hlookup
  cases hlookup
  exact hbefore hsince

/-- Each stored state is checked, or a candidate, or one that the sweep is to come to. -/
structure Sound (c : SweepConfig) (s : SweepState) : Prop where
  fits : (c.rowsSince s.sessions s.watermark).length < c.ceiling
  kept : ∀ sessionId r, s.sessions.lookup sessionId = some r →
    ⟨sessionId, r.revision⟩ ∈ s.checked ∨ ⟨sessionId, r.revision⟩ ∈ s.candidates ∨
      c.Since s.watermark r ∧ s.phase.Awaits c sessionId r
  paging : s.phase.Paging c

variable {s : SweepState}

theorem Sound.covered (h : s.Sound c) : s.Covered c := by
  intro sessionId r hr
  rcases h.kept sessionId r hr with hchecked | hcandidate | ⟨hsince, -⟩
  · exact .inl hchecked
  · exact .inr (.inl hcandidate)
  · exact .inr (.inr (due_of_since h.fits hr hsince))

theorem sound_init : Sound c {} := by
  refine ⟨?_, fun sessionId r hr => ?_, trivial⟩
  · have := c.batchSize.2
    have hle : c.batchSize.1 ≤ c.ceiling := le_ceiling _ _
    show 0 < c.ceiling
    omega
  · cases hr

/-! ## The steps of the storage -/

theorem Sound.write (h : s.Sound c) {sessionId : String} {modifiedAt : Nat}
    (hg : s.Gentle c (.write sessionId modifiedAt)) : (s.write sessionId modifiedAt).Sound c := by
  obtain ⟨hsince, hpage, hfits⟩ := hg
  refine ⟨hfits, fun sessionId' r hr => ?_, h.paging⟩
  change (s.sessions.set sessionId _).lookup sessionId' = some r at hr
  rw [Table.lookup_set] at hr
  by_cases hid : sessionId' = sessionId
  · rw [if_pos hid] at hr
    cases hr
    refine .inr (.inr ⟨hsince, ?_⟩)
    show s.phase.Awaits c sessionId' _
    cases hphase : s.phase with
    | loading startedAt limit page pending batch =>
      intro hshort
      rw [hid]
      rcases hpage _ _ _ _ _ hphase hshort with hpending | hafter
      · exact .inl hpending
      · exact .inr (.inr hafter)
    | _ => trivial
  · rw [if_neg hid] at hr
    exact h.kept sessionId' r hr

theorem Sound.remove (h : s.Sound c) (sessionId : String) :
    Sound c { s with sessions := s.sessions.erase sessionId } := by
  refine ⟨?_, fun sessionId' r hr => ?_, h.paging⟩
  · have hsub := (Table.rows_erase_sublist s.sessions sessionId).filter
      fun r => c.Since s.watermark r.2
    exact lt_of_le_of_lt hsub.length_le h.fits
  · rw [Table.lookup_erase_eq] at hr
    split at hr
    · cases hr
    · exact h.kept sessionId' r hr

/-! ## The steps of a sweep -/

theorem Sound.start (h : s.Sound c) (hphase : s.phase = .idle) (now : Nat) :
    Sound c { s with phase := .querying now c.batchSize } := by
  refine ⟨h.fits, fun sessionId r hr => ?_, rfl⟩
  rcases h.kept sessionId r hr with hchecked | hcandidate | ⟨hsince, -⟩
  · exact .inl hchecked
  · rw [candidates, hphase] at hcandidate
    cases hcandidate
  · exact .inr (.inr ⟨hsince, trivial⟩)

theorem Sound.select (h : s.Sound c) {startedAt : Nat} {limit : Limit}
    (hphase : s.phase = .querying startedAt limit) {page : List String} {order : SessionOrder}
    (hpage : page = (order.page (c.rowsSince s.sessions s.watermark) limit.1).map (·.1)) :
    Sound c { s with phase := .loading startedAt limit page page [] } := by
  have hlength : page.length = min limit.1 (c.rowsSince s.sessions s.watermark).length := by
    rw [hpage, List.length_map, RowOrder.length_page]
  have hfits := h.fits
  have hpaging := h.paging
  rw [hphase] at hpaging
  refine ⟨h.fits, fun sessionId r hr => ?_, hpaging, ?_, ?_, ?_⟩
  · rcases h.kept sessionId r hr with hchecked | hcandidate | ⟨hsince, -⟩
    · exact .inl hchecked
    · rw [candidates, hphase] at hcandidate
      cases hcandidate
    · refine .inr (.inr ⟨hsince, fun hshort => .inl ?_⟩)
      -- a short page holds every session since the watermark
      rw [hpage]
      refine List.mem_map.2 ⟨(sessionId, r), ?_, rfl⟩
      rw [RowOrder.mem_page (by omega)]
      exact SweepConfig.mem_rowsSince.2 ⟨hr, hsince⟩
  · omega
  · omega
  · simp

theorem Sound.load (h : s.Sound c) {startedAt : Nat} {limit : Limit} {page pending : List String}
    {batch : List LoadedSession} {sessionId : String}
    (hphase : s.phase = .loading startedAt limit page (sessionId :: pending) batch) :
    Sound c { s with
      phase := .loading startedAt limit page pending (batch ++ s.load sessionId) } := by
  have hpaging := h.paging
  rw [hphase] at hpaging
  obtain ⟨hceiling, hpage, hlimit, hlength⟩ := hpaging
  refine ⟨h.fits, fun sessionId' r hr => ?_, hceiling, hpage, hlimit, ?_⟩
  · rcases h.kept sessionId' r hr with hchecked | hcandidate | ⟨hsince, hawaits⟩
    · exact .inl hchecked
    · rw [candidates, hphase] at hcandidate
      cases hcandidate
    · refine .inr (.inr ⟨hsince, fun hshort => ?_⟩)
      rw [hphase] at hawaits
      rcases hawaits hshort with hpending | hbatch | hafter
      · rcases List.mem_cons.1 hpending with hid | hpending
        · subst hid
          refine .inr (.inl (List.mem_append_right _ ?_))
          rw [SweepState.load, hr]
          exact List.mem_singleton.2 rfl
        · exact .inl hpending
      · exact .inr (.inl (List.mem_append_left _ hbatch))
      · exact .inr (.inr hafter)
  · have hone : (s.load sessionId).length ≤ 1 := by
      unfold SweepState.load
      split <;> simp
    simp only [List.length_append, List.length_cons] at hlength ⊢
    omega

/-- The page was short: the watermark moves to the start of the sweep. -/
theorem Sound.advance (h : s.Sound c) {startedAt : Nat} {limit : Limit} {page : List String}
    {batch : List LoadedSession} (hphase : s.phase = .loading startedAt limit page [] batch)
    (hshort : page.length < limit.1)
    (hfits : (c.rowsSince s.sessions startedAt).length < c.ceiling) :
    Sound c { s with watermark := startedAt, phase := .processing batch } := by
  refine ⟨hfits, fun sessionId r hr => ?_, trivial⟩
  rcases h.kept sessionId r hr with hchecked | hcandidate | ⟨-, hawaits⟩
  · exact .inl hchecked
  · rw [candidates, hphase] at hcandidate
    cases hcandidate
  · rw [hphase] at hawaits
    rcases hawaits hshort with hpending | hbatch | hafter
    · cases hpending
    · exact .inr (.inl hbatch)
    · exact .inr (.inr ⟨hafter, trivial⟩)

/-- The page was full: it is queried again, with a limit the loop knows. -/
theorem Sound.grow (h : s.Sound c) {startedAt : Nat} {limit : Limit} {page : List String}
    {batch : List LoadedSession} (hphase : s.phase = .loading startedAt limit page [] batch)
    (hlimit : limit.1 < MAX_SWEEP_LIMIT) :
    Sound c { s with phase := .querying startedAt limit.grow } := by
  have hpaging := h.paging
  rw [hphase] at hpaging
  refine ⟨h.fits, fun sessionId r hr => ?_, (ceiling_grow hlimit).trans hpaging.1⟩
  rcases h.kept sessionId r hr with hchecked | hcandidate | ⟨hsince, -⟩
  · exact .inl hchecked
  · rw [candidates, hphase] at hcandidate
    cases hcandidate
  · exact .inr (.inr ⟨hsince, trivial⟩)

/-- A full page of the last limit would hold more sessions than a sweep can return. -/
theorem Sound.not_full (h : s.Sound c) {startedAt : Nat} {limit : Limit} {page : List String}
    {batch : List LoadedSession} (hphase : s.phase = .loading startedAt limit page [] batch)
    (hcap : MAX_SWEEP_LIMIT ≤ limit.1) : batch.length < limit.1 := by
  have hpaging := h.paging
  rw [hphase] at hpaging
  obtain ⟨hceiling, hpage, -, hlength⟩ := hpaging
  rw [ceiling_of_le hcap] at hceiling
  rw [List.length_nil] at hlength
  omega

theorem Sound.check (h : s.Sound c) {session : LoadedSession} {rest : List LoadedSession}
    (hphase : s.phase = .processing (session :: rest)) :
    Sound c { s with phase := .processing rest, checked := session :: s.checked } := by
  refine ⟨h.fits, fun sessionId r hr => ?_, trivial⟩
  rcases h.kept sessionId r hr with hchecked | hcandidate | ⟨hsince, -⟩
  · exact .inl (List.mem_cons_of_mem _ hchecked)
  · rw [candidates, hphase] at hcandidate
    rcases List.mem_cons.1 hcandidate with hsession | hrest
    · exact .inl (List.mem_cons.2 (.inl hsession))
    · exact .inr (.inl hrest)
  · exact .inr (.inr ⟨hsince, trivial⟩)

/-- A sweep ends, with nothing left to check that the next one would not find. -/
theorem Sound.stop (h : s.Sound c) (hg : s.Gentle c .fail) :
    Sound c { s with phase := .idle } := by
  refine ⟨h.fits, fun sessionId r hr => ?_, trivial⟩
  rcases h.kept sessionId r hr with hchecked | hcandidate | ⟨hsince, -⟩
  · exact .inl hchecked
  · rcases hg _ hcandidate r hr rfl with hchecked | hsince
    · exact .inl hchecked
    · exact .inr (.inr ⟨hsince, trivial⟩)
  · exact .inr (.inr ⟨hsince, trivial⟩)

/-- **Every gentle step keeps the invariant.** -/
theorem sound_step {l : SweepStep} {s' : SweepState} (h : s.Sound c)
    (hst : s.step c l = some s') (hg : s.Gentle c l) : s'.Sound c := by
  cases next_of_step hst with
  | write sessionId modifiedAt => exact h.write hg
  | remove sessionId => exact h.remove sessionId
  | start hphase => exact h.start hphase _
  | select hphase hpage => exact h.select hphase hpage
  | load hphase => exact h.load hphase
  | advance hphase hshort =>
    obtain ⟨hpage, hfits⟩ := hg _ _ _ _ hphase hshort
    exact h.advance hphase hpage hfits
  | giveUp hphase hfull hcap =>
    have hshort := h.not_full hphase hcap
    omega
  | grow hphase hcap => exact h.grow hphase hcap
  | check hphase => exact h.check hphase
  | finish hphase =>
    refine h.stop fun session hsession => ?_
    rw [candidates, hphase] at hsession
    cases hsession
  | fail => exact h.stop hg

theorem sound (h : ((system c).restrict (Gentle c)).Reachable s) : s.Sound c := by
  refine h.invariant (fun s hi => ?_) fun s l s' _ hs hst => sound_step hs hst.1 hst.2
  rw [show s = {} from hi]
  exact sound_init

/-! ## What a session passed over comes to -/

/-- Stored as it was written, not checked, before the watermark, and in no sweep's hands. -/
structure Lost (c : SweepConfig) (s : SweepState) (sessionId : String) (r : Stamp) : Prop where
  stored : s.sessions.lookup sessionId = some r
  unchecked : ⟨sessionId, r.revision⟩ ∉ s.checked
  before : ¬c.Since s.watermark r
  without : s.phase.Without c sessionId r

/-- A step of other sessions, or of a sweep begun after the session was modified. -/
def Elsewhere (c : SweepConfig) (sessionId : String) (r : Stamp) : SweepStep → Prop
  | .write sessionId' _ => sessionId' ≠ sessionId
  | .remove sessionId' => sessionId' ≠ sessionId
  | .start now => ¬c.Since now r
  | _ => True

theorem Lost.not_covered {sessionId : String} {r : Stamp} (h : s.Lost c sessionId r) :
    ¬s.Covered c := by
  intro hcovered
  rcases hcovered sessionId r h.stored with hchecked | hcandidate | hdue
  · exact h.unchecked hchecked
  · have hwithout := h.without
    rw [candidates] at hcandidate
    cases hphase : s.phase with
    | processing left =>
      rw [hphase] at hcandidate hwithout
      exact hwithout hcandidate
    | _ =>
      rw [hphase] at hcandidate
      cases hcandidate
  · exact not_due h.stored h.before hdue

theorem Lost.step {sessionId : String} {r : Stamp} {l : SweepStep} {s' : SweepState}
    (h : s.Lost c sessionId r) (hst : s.step c l = some s')
    (hl : Elsewhere c sessionId r l) : s'.Lost c sessionId r := by
  have hwithout := h.without
  cases next_of_step hst with
  | write sessionId' modifiedAt =>
    refine ⟨?_, h.unchecked, h.before, h.without⟩
    show (s.sessions.set sessionId' _).lookup sessionId = _
    rw [Table.lookup_set, if_neg (Ne.symm hl)]
    exact h.stored
  | remove sessionId' =>
    refine ⟨?_, h.unchecked, h.before, h.without⟩
    show (s.sessions.erase sessionId').lookup sessionId = _
    rw [Table.lookup_erase_eq, if_neg (Ne.symm hl)]
    exact h.stored
  | start hphase => exact ⟨h.stored, h.unchecked, h.before, hl⟩
  | select hphase hpage =>
    rw [hphase] at hwithout
    refine ⟨h.stored, h.unchecked, h.before, hwithout, fun hin => ?_, List.not_mem_nil⟩
    rw [hpage] at hin
    obtain ⟨row, hrow, rfl⟩ := List.mem_map.1 hin
    obtain ⟨hlookup, hsince⟩ := SweepConfig.mem_rowsSince.1 (RowOrder.mem_of_mem_page hrow)
    rw [h.stored] at hlookup
    cases hlookup
    -- its time is before the watermark, so no page has it
    exact h.before hsince
  | load hphase =>
    rw [hphase] at hwithout
    obtain ⟨hafter, hpending, hbatch⟩ := hwithout
    rw [List.mem_cons, not_or] at hpending
    refine ⟨h.stored, h.unchecked, h.before, hafter, hpending.2, fun hin => ?_⟩
    rcases List.mem_append.1 hin with hin | hloaded
    · exact hbatch hin
    · unfold SweepState.load at hloaded
      split at hloaded
      · exact hpending.1 (congrArg LoadedSession.sessionId (List.mem_singleton.1 hloaded))
      · cases hloaded
  | advance hphase hshort =>
    rw [hphase] at hwithout
    exact ⟨h.stored, h.unchecked, hwithout.1, hwithout.2.2⟩
  | giveUp hphase hfull hcap =>
    rw [hphase] at hwithout
    exact ⟨h.stored, h.unchecked, h.before, hwithout.2.2⟩
  | grow hphase hcap =>
    rw [hphase] at hwithout
    exact ⟨h.stored, h.unchecked, h.before, hwithout.1⟩
  | check hphase =>
    rw [hphase] at hwithout
    change _ ∉ _ :: _ at hwithout
    rw [List.mem_cons, not_or] at hwithout
    refine ⟨h.stored, ?_, h.before, hwithout.2⟩
    rw [List.mem_cons, not_or]
    exact ⟨hwithout.1, h.unchecked⟩
  | finish hphase => exact ⟨h.stored, h.unchecked, h.before, trivial⟩
  | fail => exact ⟨h.stored, h.unchecked, h.before, trivial⟩

/-- It stays so until it is written again or removed. -/
theorem Lost.path {sessionId : String} {r : Stamp} {ls : List SweepStep} {s' : SweepState}
    (h : s.Lost c sessionId r) (hs : (system c).Reachable s) (hpath : (system c).Path s ls s')
    (hls : ∀ l ∈ ls, Elsewhere c sessionId r l) : s'.Lost c sessionId r :=
  hpath.invariant (P := fun s => s.Lost c sessionId r) hs h fun _ l _ hl _ hlost hst =>
    hlost.step hst (hls l hl)

end SweepState

/-- **No session is skipped**, in every run whose steps are gentle. -/
theorem nothing_skipped {s : SweepState}
    (h : ((SweepState.system c).restrict (SweepState.Gentle c)).Reachable s) : s.Covered c :=
  (SweepState.sound h).covered

/-! ## Sessions modified before a sweep, and during it -/

/-- Sweeps over SQLite, which keeps whole seconds. -/
def sqliteSweep : SweepConfig where
  batchSize := DEFAULT_BATCH_SIZE
  grain := 1000000

namespace SweepState

theorem lt_ceiling {n : Nat} (h : n < 100) : n < sqliteSweep.ceiling :=
  lt_of_lt_of_le h (le_ceiling MAX_SWEEP_LIMIT sqliteSweep.batchSize)

/-- Two sessions are written in second 1, and found by a sweep begun in second 2, which loads one,
is overtaken by a write of it in second 3, loads the other, and checks both as it has loaded them. -/
theorem overtaken_reachable : ∃ s : SweepState,
    ((system sqliteSweep).restrict (Gentle sqliteSweep)).Reachable s ∧
      s.checked = [⟨"t", 1⟩, ⟨"s", 0⟩] ∧ s.sessions.lookup "s" = some ⟨3, 2⟩ ∧
      s.phase = .idle := by
  have h₀ : ((system sqliteSweep).restrict (Gentle sqliteSweep)).Reachable {} := .init rfl
  have h₁ := h₀.step (l := SweepStep.write "s" 1) ⟨rfl, Nat.zero_le _, fun _ _ _ _ _ h => (by cases h),
    lt_ceiling (by decide)⟩
  have h₂ := h₁.step (l := SweepStep.write "t" 1) ⟨rfl, Nat.zero_le _, fun _ _ _ _ _ h => (by cases h),
    lt_ceiling (by decide)⟩
  have h₃ := h₂.step (l := SweepStep.start 2000000) ⟨rfl, trivial⟩
  have h₄ := h₃.step (l := SweepStep.select (.stable _)) ⟨rfl, trivial⟩
  have h₅ := h₄.step (l := SweepStep.load) ⟨rfl, trivial⟩
  have h₆ := h₅.step (l := SweepStep.write "s" 3) ⟨rfl, Nat.zero_le _, fun _ _ _ _ _ h _ => ?_,
    lt_ceiling (by decide)⟩
  · have h₇ := h₆.step (l := SweepStep.load) ⟨rfl, trivial⟩
    have h₈ := h₇.step (l := SweepStep.close) ⟨rfl, fun _ _ _ _ h _ => ?_⟩
    · have h₉ := h₈.step (l := SweepStep.check) ⟨rfl, trivial⟩
      have h₁₀ := h₉.step (l := SweepStep.check) ⟨rfl, trivial⟩
      exact ⟨_, h₁₀.step (l := SweepStep.finish) ⟨rfl, trivial⟩, rfl, rfl, rfl⟩
    · cases h
      exact ⟨by decide, lt_ceiling (by decide)⟩
  · cases h
    exact .inr (by decide)

/-- Written in second 1, and found by a sweep begun in second 2. -/
def found : SweepState where
  sessions := (∅ : Table String Stamp).set "s" ⟨1, 0⟩
  writes := 1
  watermark := 2000000
  phase := .processing [⟨"s", 0⟩]

theorem found_reachable : ((system sqliteSweep).restrict (Gentle sqliteSweep)).Reachable found := by
  have h₀ : ((system sqliteSweep).restrict (Gentle sqliteSweep)).Reachable {} := .init rfl
  have h₁ := h₀.step (l := SweepStep.write "s" 1) ⟨rfl, Nat.zero_le _, fun _ _ _ _ _ h => (by cases h),
    lt_ceiling (by decide)⟩
  have h₂ := h₁.step (l := SweepStep.start 2000000) ⟨rfl, trivial⟩
  have h₃ := h₂.step (l := SweepStep.select (.stable _)) ⟨rfl, trivial⟩
  have h₄ := h₃.step (l := SweepStep.load) ⟨rfl, trivial⟩
  refine h₄.step (l := SweepStep.close) ⟨rfl, fun _ _ _ _ h _ => ?_⟩
  cases h
  exact ⟨by decide, lt_ceiling (by decide)⟩

end SweepState

/-- The sweep is over: the one that was written during it is due again. -/
theorem nothing_skipped_overtaken : ∃ s : SweepState, s.checked = [⟨"t", 1⟩, ⟨"s", 0⟩] ∧
    s.Covered sqliteSweep ∧ s.Due sqliteSweep "s" := by
  obtain ⟨s, h, hchecked, hrow, hidle⟩ := SweepState.overtaken_reachable
  have hcovered := nothing_skipped h
  refine ⟨s, hchecked, hcovered, ?_⟩
  have hdue := hcovered "s" ⟨3, 2⟩ hrow
  simpa [hchecked, SweepState.candidates, hidle] using hdue

/-- A check raises: the session is skipped. -/
theorem raising_check_skips : ¬∀ (c : SweepConfig) (s : SweepState),
    (SweepState.system c).Reachable s → s.Covered c := by
  intro h
  have hr := SweepState.found_reachable.of_restrict.step (l := SweepStep.fail) rfl
  have hlost : SweepState.Lost sqliteSweep { SweepState.found with phase := .idle } "s" ⟨1, 0⟩ :=
    ⟨rfl, List.not_mem_nil, by decide, trivial⟩
  exact hlost.not_covered (h _ _ hr)

end CksRuntime
