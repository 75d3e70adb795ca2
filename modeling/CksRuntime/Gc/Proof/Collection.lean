import CksRuntime.Core.Laws
import CksRuntime.Gc.GarbageCollector
import CksRuntime.Lib.Lockstep
import CksRuntime.Storage.Proof.Archive
import CksRuntime.Storage.Proof.Dump
import CksRuntime.Storage.Proof.Import
import Mathlib.Data.List.ReduceOption

/-!
# What the garbage collector collects

`collects_iff`: in every store that was written to through its calls a sweep is safe, and it
archives something that is due exactly when its page reaches a closed session and can be loaded;
sweeps that all do leave nothing of what was due. A page that holds open sessions only is the same
at the next sweep.
-/

set_option autoImplicit false

namespace CksRuntime

open Effect (ok_of_mapM_eq_ok ok_of_mem_readable readable stateOf stateOf_outcome)
open GrowingPage (RowOrder)
open Lockstep (Throughout)

variable {K : Core}

/-! ## The candidates -/

namespace Tables

variable {t : Tables K} {id : String} {cells : SessionCells K}

/-- The object of a row that `load_session` can read says the id it is stored under. -/
def Keyed (t : Tables K) : Prop :=
  ∀ id cells, t.sessions.lookup id = some cells → cells.data = .flat cells.data.data →
    cells.data.data.sessionId = id

theorem mem_modifiedBefore {cutoff : Int} : (id, cells) ∈ t.modifiedBefore cutoff ↔
    t.sessions.lookup id = some cells ∧ (cells.modifiedAt : Int) < cutoff / 1000000 := by
  rw [modifiedBefore, List.mem_filter, Table.mem_rows, decide_eq_true_eq]

theorem mem_of_mem_page {order : ModifiedOrder K} {cutoff limit : Int}
    {r : String × SessionCells K} (h : r ∈ t.modifiedBeforePage order cutoff limit) :
    r ∈ t.modifiedBefore cutoff := by
  rw [modifiedBeforePage] at h
  split at h
  · exact (order.perm _).mem_iff.1 h
  · exact RowOrder.mem_of_mem_page h

/-- What was modified before a candidate is a candidate. -/
theorem mem_page_of_lt {order : ModifiedOrder K} {cutoff limit : Int}
    {r q : String × SessionCells K} (hr : r ∈ t.modifiedBeforePage order cutoff limit)
    (hq : q ∈ t.modifiedBefore cutoff) (hlt : q.2.modifiedAt < r.2.modifiedAt) :
    q ∈ t.modifiedBeforePage order cutoff limit := by
  rw [modifiedBeforePage] at hr ⊢
  by_cases hlimit : limit < 0
  · rw [if_pos hlimit]
    exact (order.perm _).mem_iff.2 hq
  · rw [if_neg hlimit] at hr ⊢
    exact RowOrder.mem_page_of_lt hr hq hlt

end Tables

/-! ## One sweep -/

namespace GarbageCollector

variable {gc : GarbageCollector} {w : GcSweep K} {t : ArchivingTables K} {id : String}

theorem sessions_collect (clock : String → Nat) (t : ArchivingTables K) (s : Session K) :
    (collect clock t s).sessions.lookup id =
      if s.closed = true ∧ s.sessionId = id then none else t.sessions.lookup id := by
  rw [collect]
  by_cases hclosed : s.closed = true
  · rw [if_pos hclosed, ArchivingTables.archiveSession_sessions]
    simp [hclosed, eq_comm]
  · simp [hclosed]

theorem sessions_foldl_collect (clock : String → Nat) (id : String) (l : List (Session K)) :
    ∀ t : ArchivingTables K, (l.foldl (collect clock) t).sessions.lookup id =
      if ∃ s ∈ l, s.closed = true ∧ s.sessionId = id then none else t.sessions.lookup id := by
  induction l with
  | nil => simp
  | cons s l ih =>
    intro t
    rw [List.foldl_cons, ih, sessions_collect]
    by_cases hrest : ∃ s ∈ l, s.closed = true ∧ s.sessionId = id
    · obtain ⟨s', hs', hid⟩ := hrest
      rw [if_pos ⟨s', hs', hid⟩, if_pos ⟨s', List.mem_cons_of_mem _ hs', hid⟩]
    · rw [if_neg hrest]
      refine if_congr ?_ rfl rfl
      simp [hrest]

/-- The session of a row that can be loaded. -/
def loadedRow (t : ArchivingTables K) (r : String × SessionCells K) : Option (Session K) :=
  (t.toTables.loadSession r.1).toOption.join

/-- A candidate that can be loaded is loaded as it is stored. -/
theorem loadedRow_candidate (hkeyed : t.toTables.Keyed) {r : String × SessionCells K}
    (hr : r ∈ gc.candidates w t.toTables) (hl : t.toTables.Legible r) :
    ∃ s, loadedRow t r = some s ∧ t.toTables.loadSession r.1 = .ok (some s) ∧
      s.closed = r.2.data.data.closed ∧ s.sessionId = r.1 := by
  have hrow := (Tables.mem_modifiedBefore.1 (Tables.mem_of_mem_page hr)).1
  have hok := hl.loadSession hrow
  refine ⟨_, ?_, hok, rfl, hkeyed _ _ hrow hl.session⟩
  rw [loadedRow, hok]
  rfl

/-- A sweep whose candidates can be loaded goes through all of their sessions. -/
theorem swept_of_legible (hkeyed : t.toTables.Keyed)
    (hl : ∀ r ∈ gc.candidates w t.toTables, t.toTables.Legible r) : gc.swept t w =
      ((gc.candidates w t.toTables).map (loadedRow t)).reduceOption.foldl (collect w.clock) t := by
  have hcalls := mapM_eq_ok (l := gc.candidates w t.toTables)
    (f := fun r => t.toTables.loadSession r.1) (g := loadedRow t) fun r hr => by
      obtain ⟨s, hs, hok, -⟩ := loadedRow_candidate hkeyed hr (hl r hr)
      rw [hok, hs]
  rw [candidates] at hcalls
  rw [swept, sweep, Tables.listSessionsModifiedBefore, hcalls]
  rfl

/-- A sweep whose candidates can be loaded takes out the closed ones. -/
theorem sessions_swept (hkeyed : t.toTables.Keyed)
    (hl : ∀ r ∈ gc.candidates w t.toTables, t.toTables.Legible r) (id : String) :
    (gc.swept t w).sessions.lookup id =
      if ∃ r ∈ gc.candidates w t.toTables, r.2.data.data.closed = true ∧ r.1 = id then none
      else t.sessions.lookup id := by
  rw [swept_of_legible hkeyed hl, sessions_foldl_collect]
  refine if_congr ?_ rfl rfl
  constructor
  · intro h
    obtain ⟨s, hs, hclosed, hid⟩ := h
    rw [List.reduceOption_mem_iff, List.mem_map] at hs
    obtain ⟨r, hr, hsome⟩ := hs
    obtain ⟨s', hs', -, hclosed', hid'⟩ := loadedRow_candidate hkeyed hr (hl r hr)
    cases hs'.symm.trans hsome
    exact ⟨r, hr, hclosed' ▸ hclosed, hid'.symm.trans hid⟩
  · intro h
    obtain ⟨r, hr, hclosed, hid⟩ := h
    obtain ⟨s, hs, -, hclosed', hid'⟩ := loadedRow_candidate hkeyed hr (hl r hr)
    refine ⟨s, ?_, hclosed'.trans hclosed, hid'.trans hid⟩
    rw [List.reduceOption_mem_iff, List.mem_map]
    exact ⟨r, hr, hs⟩

/-- One with a candidate that cannot be loaded raises, before it archives anything. -/
theorem swept_of_not_legible
    (h : ¬∀ r ∈ gc.candidates w t.toTables, t.toTables.Legible r) : gc.swept t w = t := by
  have hraises : (gc.sweep w t).toOption = none := by
    rw [sweep, Tables.listSessionsModifiedBefore]
    cases hcalls : (t.modifiedBeforePage w.order (gc.cutoff w.now) gc.batchSize).mapM
        fun r => t.toTables.loadSession r.1 with
    | error e => rfl
    | ok sessions =>
      refine absurd (fun r hr => ?_) h
      obtain ⟨s, hs⟩ := ok_of_mapM_eq_ok hcalls r hr
      exact Tables.legible_of_loadSession
        (Tables.mem_modifiedBefore.1 (Tables.mem_of_mem_page hr)).1 hs
  rw [swept, hraises]
  rfl

theorem archives_iff (hkeyed : t.toTables.Keyed) (id : String) : gc.Archives w t id ↔
    (∀ r ∈ gc.candidates w t.toTables, t.toTables.Legible r) ∧
      ∃ r ∈ gc.candidates w t.toTables, r.2.data.data.closed = true ∧ r.1 = id := by
  rw [Archives, ← AList.lookup_isSome, ← AList.lookup_eq_none]
  by_cases hl : ∀ r ∈ gc.candidates w t.toTables, t.toTables.Legible r
  · rw [sessions_swept hkeyed hl]
    constructor
    · intro h
      obtain ⟨hin, hout⟩ := h
      refine ⟨hl, by_contra fun hnone => ?_⟩
      rw [if_neg hnone] at hout
      rw [hout] at hin
      cases hin
    · intro h
      refine ⟨?_, if_pos h.2⟩
      obtain ⟨r, hr, -, rfl⟩ := h.2
      rw [(Tables.mem_modifiedBefore.1 (Tables.mem_of_mem_page hr)).1]
      rfl
  · rw [swept_of_not_legible hl]
    refine iff_of_false (fun h => ?_) fun h => hl h.1
    rw [h.2] at h
    cases h.1

/-! ## What it does for -/

theorem safe (hkeyed : t.toTables.Keyed) (gc : GarbageCollector) (w : GcSweep K) : gc.Safe w t := by
  intro id cells hcells harchives
  obtain ⟨-, r, hr, hclosed, rfl⟩ := (archives_iff hkeyed id).1 harchives
  obtain ⟨hrow, hbefore⟩ := Tables.mem_modifiedBefore.1 (Tables.mem_of_mem_page hr)
  cases hrow.symm.trans hcells
  exact ⟨hclosed, by omega⟩

/-- Whatever of the candidates is closed is due. -/
theorem due_of_candidate {r : String × SessionCells K} (hr : r ∈ gc.candidates w t.toTables)
    (hclosed : r.2.data.data.closed = true) : gc.Due w.now t r.1 := by
  obtain ⟨hrow, hbefore⟩ := Tables.mem_modifiedBefore.1 (Tables.mem_of_mem_page hr)
  refine ⟨r.2, hrow, hclosed, ?_⟩
  rw [PastRetention]
  omega

theorem progresses_iff (hkeyed : t.toTables.Keyed) : gc.Progresses w t ↔ gc.Reaches t w := by
  refine forall_congr' fun _ => ?_
  constructor
  · intro h
    obtain ⟨id, -, harchives⟩ := h
    obtain ⟨hl, r, hr, hclosed, -⟩ := (archives_iff hkeyed id).1 harchives
    exact ⟨⟨r, hr, hclosed⟩, hl⟩
  · intro h
    obtain ⟨⟨r, hr, hclosed⟩, hl⟩ := h
    exact ⟨r.1, due_of_candidate hr hclosed, (archives_iff hkeyed r.1).2 ⟨hl, r, hr, hclosed, rfl⟩⟩

/-! ## Sweep after sweep -/

theorem lookup_swept (hkeyed : t.toTables.Keyed) {cells : SessionCells K}
    (h : (gc.swept t w).sessions.lookup id = some cells) : t.sessions.lookup id = some cells := by
  by_cases hl : ∀ r ∈ gc.candidates w t.toTables, t.toTables.Legible r
  · rw [sessions_swept hkeyed hl] at h
    split at h
    · cases h
    · exact h
  · rw [swept_of_not_legible hl] at h
    exact h

theorem keyed_swept (hkeyed : t.toTables.Keyed) (gc : GarbageCollector) (w : GcSweep K) :
    (gc.swept t w).toTables.Keyed :=
  fun id cells hcells => hkeyed id cells (lookup_swept hkeyed hcells)

theorem Due.of_swept (hkeyed : t.toTables.Keyed) {now : Int} (h : gc.Due now (gc.swept t w) id) :
    gc.Due now t id := by
  obtain ⟨cells, hcells, hdue⟩ := h
  exact ⟨cells, lookup_swept hkeyed hcells, hdue⟩

/-- A later sweep that reaches a closed session archives one that was due before, as long as there
is any: what was modified earlier comes first. -/
theorem Reaches.archives (hkeyed : t.toTables.Keyed) {now : Int} (hnow : now ≤ w.now)
    (hreaches : gc.Reaches t w) (h : gc.Due now t id) :
    ∃ id', gc.Due now t id' ∧ gc.Archives w t id' := by
  obtain ⟨cells, hcells, hclosed, hpast⟩ := h
  rw [PastRetention, cutoff] at hpast
  have hdue : gc.Due w.now t id := by
    refine ⟨cells, hcells, hclosed, ?_⟩
    rw [PastRetention, cutoff]
    omega
  obtain ⟨⟨r, hr, hrclosed⟩, hl⟩ := hreaches ⟨id, hdue⟩
  obtain ⟨hrow, hbefore⟩ := Tables.mem_modifiedBefore.1 (Tables.mem_of_mem_page hr)
  by_cases hrpast : gc.PastRetention now r.2
  · exact ⟨r.1, ⟨r.2, hrow, hrclosed, hrpast⟩,
      (archives_iff hkeyed r.1).2 ⟨hl, r, hr, hrclosed, rfl⟩⟩
  · rw [PastRetention, cutoff] at hrpast
    have hlt : cells.modifiedAt < r.2.modifiedAt := by omega
    have hmem : (id, cells) ∈ gc.candidates w t.toTables := by
      refine Tables.mem_page_of_lt hr (Tables.mem_modifiedBefore.2 ⟨hcells, ?_⟩) hlt
      rw [cutoff] at hbefore ⊢
      omega
    exact ⟨id, ⟨cells, hcells, hclosed, by rw [PastRetention, cutoff]; omega⟩,
      (archives_iff hkeyed id).2 ⟨hl, (id, cells), hmem, hclosed, rfl⟩⟩

theorem collectsAll {now : Int} (sweeps : List (GcSweep K)) : ∀ {t : ArchivingTables K},
    t.toTables.Keyed → Throughout gc.swept gc.Reaches sweeps t → gc.CollectsAll now sweeps t := by
  induction sweeps with
  | nil =>
    intro t _ _ _ ids hids hlength id hdue
    have hmem := hids id hdue
    rw [List.length_eq_zero_iff.1 (Nat.le_zero.1 hlength)] at hmem
    cases hmem
  | cons w sweeps ih =>
    intro t hkeyed hreaches hnow ids hids hlength id hdue
    have hlater := fun w' hw' => hnow w' (List.mem_cons_of_mem w hw')
    have hkept := keyed_swept hkeyed gc w
    by_cases hany : ∃ id, gc.Due now t id
    · obtain ⟨id₀, h₀⟩ := hany
      obtain ⟨id', hdue', harchives⟩ :=
        Reaches.archives hkeyed (hnow w List.mem_cons_self) hreaches.1 h₀
      refine ih hkept hreaches.2 hlater (ids.erase id') (fun x hx => ?_) ?_ id hdue
      · refine (List.mem_erase_of_ne fun heq => ?_).2 (hids x (Due.of_swept hkeyed hx))
        obtain ⟨cells, hcells, -⟩ := hx
        rw [heq, AList.lookup_eq_none.2 harchives.2] at hcells
        cases hcells
      · rw [List.length_erase_of_mem (hids id' hdue')]
        rw [List.length_cons] at hlength
        omega
    · refine ih hkept hreaches.2 hlater [] (fun x hx => ?_) (Nat.zero_le _) id hdue
      exact (hany ⟨x, Due.of_swept hkeyed hx⟩).elim

end GarbageCollector

/-! ## The stores there are -/

namespace Tables.Keyed

variable {t : Tables K}

theorem putSession (h : t.Keyed) (now : Nat) (s : Session K) : (t.putSession now s).Keyed := by
  intro id cells hcells hflat
  rw [Tables.putSession, Table.lookup_set] at hcells
  split at hcells
  · cases hcells
    rename_i hid
    exact hid.symm
  · exact h id cells hcells hflat

theorem call (h : t.Keyed) (c : StoreCall K) : (t.call c).Keyed := by
  cases c with
  | saveSession now s expected =>
    rcases Connection.saveSession_durable t now s expected with hc | hc
    · rw [Tables.call, hc]
      exact h
    · rw [Tables.call, hc]
      exact h.putSession now s
  | saveVersion v =>
    rcases Connection.saveVersion_durable t v with hc | hc
    · rw [Tables.call, hc]
      exact h
    · rw [Tables.call, hc]
      exact h
  | registerGraph now a => exact h
  | unregisterGraph name => exact h

theorem load (h : t.Keyed) (now : Nat) (d : Dump K) : (t.load (d.reads now).before).Keyed := by
  have hrows : (d.reads now).before.sessions = readable (d.sessions.map (readSession now)) := by
    rw [DumpReads.before]
    repeat' split
    all_goals rfl
  intro id cells hcells hflat
  rw [Tables.load, hrows, Table.lookup_insertAll, Option.or_eq_some_iff] at hcells
  rcases hcells with hold | ⟨-, hnew⟩
  · exact h id cells hold hflat
  · have hread := ok_of_mem_readable (Table.mem_of_first hnew)
    obtain ⟨entry, -, hentry⟩ := List.mem_map.1 hread
    rw [readSession] at hentry
    cases hjson : entry.json with
    | flat data =>
      rw [hjson] at hentry
      cases hentry
      rfl
    | wrapped columns data =>
      rw [hjson] at hentry
      cases hentry
      cases hflat

theorem importStorage (h : t.Keyed) (clear : Bool) (now : Nat) (d : Dump K) :
    (stateOf (CksRuntime.importStorage clear (d.reads now) t)).Keyed := by
  rw [importStorage_run, stateOf_outcome]
  cases clear with
  | false => exact h.load now d
  | true => exact load (t := t.clear) (fun id cells hcells => by cases hcells) now d

end Tables.Keyed

theorem keyed_step {t : ArchivingTables K} (h : t.toTables.Keyed) (e : StorageEvent K) :
    (t.step e).toTables.Keyed := by
  cases e with
  | call c => exact h.call c
  | importDump clear now d => exact h.importStorage clear now d
  | archive now sessionId =>
    intro id cells hcells
    rw [ArchivingTables.step, ArchivingTables.archiveSession_sessions] at hcells
    split at hcells
    · cases hcells
    · exact h id cells hcells
  | sweep gc w => exact GarbageCollector.keyed_swept h gc w

theorem keyed_run (events : List (StorageEvent K)) :
    (events.foldl ArchivingTables.step {}).toTables.Keyed := by
  have hrun : ∀ t : ArchivingTables K, t.toTables.Keyed →
      (events.foldl ArchivingTables.step t).toTables.Keyed := by
    induction events with
    | nil => exact fun t h => h
    | cons e events ih => exact fun t h => ih _ (keyed_step h e)
  exact hrun {} fun id cells hcells => by cases hcells

/-- **A sweep is safe** in every store, **and it progresses** exactly when its candidates reach a
closed session and can be loaded; sweeps that do collect everything. -/
theorem collects_iff (events : List (StorageEvent K)) (gc : GarbageCollector) :
    let t := events.foldl ArchivingTables.step {}
    (∀ w, gc.Safe w t ∧ (gc.Progresses w t ↔ gc.Reaches t w)) ∧
      ∀ now sweeps, Throughout gc.swept gc.Reaches sweeps t → gc.CollectsAll now sweeps t := by
  have hkeyed := keyed_run events
  exact ⟨fun w => ⟨GarbageCollector.safe hkeyed gc w, GarbageCollector.progresses_iff hkeyed⟩,
    fun now sweeps => GarbageCollector.collectsAll sweeps hkeyed⟩

/-- A session of the store that is swept. -/
def sweptSession (id : String) (closed : Bool) : Session Core.register where
  knowledgeStructure := (1 : Nat)
  sessionId := id
  closed := closed

/-- An open session and then a closed one. -/
def savedInTurn : List (StorageEvent Core.register) :=
  [.call (.saveSession 1 (sweptSession "open" false) none),
    .call (.saveSession 2 (sweptSession "closed" true) none)]

/-- Sweeps of one session each. -/
def oneByOne : GarbageCollector := ⟨86400000000, 1⟩

/-- A sweep long after both were modified. -/
def sweepLater : GcSweep Core.register := ⟨200000000000, .stable _, fun _ => 200000⟩

/-- The open session is the one candidate of every sweep. -/
theorem open_session_starves : ¬∀ (events : List (StorageEvent Core.register))
    (gc : GarbageCollector) (w : GcSweep Core.register),
    gc.Progresses w (events.foldl ArchivingTables.step {}) := by
  intro h
  let t : ArchivingTables Core.register := savedInTurn.foldl ArchivingTables.step {}
  have hpast : (2 : Int) * 1000000 < 200000000000 - 86400000000 := by decide
  have hdue : oneByOne.Due sweepLater.now t "closed" := ⟨_, rfl, rfl, hpast⟩
  have hreaches := (GarbageCollector.progresses_iff (keyed_run savedInTurn)).1
    (h savedInTurn oneByOne sweepLater)
  obtain ⟨⟨r, hr, hclosed⟩, -⟩ := hreaches ⟨_, hdue⟩
  have hbefore : t.toTables.modifiedBefore (oneByOne.cutoff sweepLater.now) = t.sessions.rows := by
    refine List.filter_eq_self.2 fun r hr => decide_eq_true ?_
    have hcutoff : oneByOne.cutoff sweepLater.now / 1000000 = 113600 := by decide
    rw [hcutoff]
    rcases List.mem_cons.1 hr with rfl | hr
    · decide
    · rw [List.mem_singleton.1 hr]
      decide
  have hpage : oneByOne.candidates sweepLater t.toTables = t.sessions.rows.take 1 := by
    rw [GarbageCollector.candidates, Tables.modifiedBeforePage, hbefore]
    rfl
  rw [hpage] at hr
  rw [List.mem_singleton.1 hr] at hclosed
  cases hclosed

end CksRuntime
