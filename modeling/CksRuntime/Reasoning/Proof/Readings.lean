import CksRuntime.Reasoning.GraphSweep

/-!
# Two readings of a timestamp

The provenance sweeper reads every text in UTC (`readUtc`), the health sweeper reads it as it is,
then in UTC. `aware_iff`: they read one instant where the text has a time of the day and no offset,
or is a date that an offset follows, which to both is a time. Then neither comparison raises, and
the verdicts on a record are one (`sameVerdict`).
-/

set_option autoImplicit false

namespace CksRuntime

open IsoTime IsoText

/-- A text of ISO 8601: one zone mark at most. -/
structure IsoTimestamp extends IsoText where
  oneZone : zones.length ≤ 1

/-- The text has a time and names no offset, or an offset follows its date. -/
def IsoTimestamp.ReadAlike (t : IsoTimestamp) : Prop :=
  (t.time.isSome ∧ ∀ minutes, .offset minutes ∉ t.zones) ∨
    (t.time = none ∧ ∃ minutes, t.zones = [.offset minutes])

/-- Both read an instant. -/
def BothRead (t : IsoText) (instant : Int) : Prop :=
  parseTimestamp (some (.iso t)) = some (.aware instant) ∧
    GraphHealthSweeper.parseTimestamp (some (.iso t)) = some (.aware instant)

/-- Both read one instant, or both read none. -/
def SameReading (t : IsoText) : Prop :=
  (∃ instant, BothRead t instant) ∨
    (parseTimestamp (some (.iso t)) = none ∧
      GraphHealthSweeper.parseTimestamp (some (.iso t)) = none)

/-- Whether the provenance sweeper finds the record stale. -/
def provenanceVerdict (cutoff : Int) (k : Knowledge) (record : StructureObject) :
    Except SweepError Bool :=
  match ProvenanceStalenessSweeper.finding cutoff k record with
  | none => .ok false
  | some (.error e) => .error e
  | some (.ok _) => .ok true

/-- The record is stale to the one if it is not fresh to the other, and neither raises. -/
def SameVerdict (cutoff : Int) (k : Knowledge) (record : StructureObject) : Prop :=
  ∃ stale, provenanceVerdict cutoff k record = .ok stale ∧
    GraphHealthSweeper.fresh cutoff (record.fields.lookup CHECKED_AT_KEY) = .ok !stale

/-- Every record checked at `t`, with every TTL and at every time. -/
def SameVerdicts (t : IsoText) : Prop :=
  ∀ (now : Int) (ttlSeconds : Nat) (k : Knowledge) (record : StructureObject),
    record.type = VERIFICATION_RECORD_TYPE →
    record.fields.lookup CHECKED_AT_KEY = some (.iso t) →
    SameVerdict (now - ttlSeconds * SECOND) k record

/-! ## The two parsers -/

section
variable (day : Int)

theorem health_time (time : Nat) :
    GraphHealthSweeper.parseTimestamp (some (.iso ⟨day, some time, []⟩)) =
      some (.aware (day * DAY + time)) := rfl

theorem health_zone (time : Nat) (zone : Zone) :
    GraphHealthSweeper.parseTimestamp (some (.iso ⟨day, some time, [zone]⟩)) =
      some (.aware (day * DAY + time - zone.minutes * MINUTE)) := rfl

theorem health_offset (minutes : Int) :
    GraphHealthSweeper.parseTimestamp (some (.iso ⟨day, none, [.offset minutes]⟩)) =
      some (.aware (day * DAY + (minutes.natAbs * 60000000 : Nat))) := rfl

theorem provenance_time (time : Nat) {zones : List Zone} (h : zones = [] ∨ zones = [.utc]) :
    parseTimestamp (some (.iso ⟨day, some time, zones⟩)) = some (.aware (day * DAY + time)) := by
  rw [parseTimestamp, readUtc_some, if_pos h]

theorem provenance_offset (minutes : Int) :
    parseTimestamp (some (.iso ⟨day, none, [.offset minutes]⟩)) =
      some (.aware (day * DAY + (minutes.natAbs * 60000000 : Nat))) := by
  rw [parseTimestamp, readUtc_separated, readUtc_some, if_pos (.inl rfl)]

theorem provenance_date {zones : List Zone} (h : zones = [] ∨ zones = [.utc]) :
    parseTimestamp (some (.iso ⟨day, none, zones⟩)) = some (.naive (day * DAY)) := by
  rw [parseTimestamp, readUtc_date day h]

theorem provenance_zone (time : Nat) (minutes : Int) :
    parseTimestamp (some (.iso ⟨day, some time, [.offset minutes]⟩)) = none := by
  rw [parseTimestamp, readUtc_some, if_neg (by simp)]

end

/-- The zone marks of a timestamp: none, a `Z`, or an offset. -/
theorem IsoTimestamp.zones_cases (t : IsoTimestamp) :
    t.zones = [] ∨ t.zones = [.utc] ∨ ∃ minutes, t.zones = [.offset minutes] := by
  obtain ⟨⟨day, time, zones⟩, hone⟩ := t
  cases zones with
  | nil => exact .inl rfl
  | cons zone zones =>
    have hrest : zones = [] := List.eq_nil_of_length_eq_zero (by simpa using hone)
    subst hrest
    cases zone with
    | utc => exact .inr (.inl rfl)
    | offset minutes => exact .inr (.inr ⟨minutes, rfl⟩)

theorem aware_iff (t : IsoTimestamp) :
    (∃ instant, BothRead t.toIsoText instant) ↔ t.ReadAlike := by
  have hzones := t.zones_cases
  obtain ⟨⟨day, time, zones⟩, hone⟩ := t
  simp only [IsoTimestamp.ReadAlike] at hzones ⊢
  cases time with
  | some time =>
    rcases hzones with rfl | rfl | ⟨minutes, rfl⟩
    · refine iff_of_true ⟨_, provenance_time day time (.inl rfl), health_time day time⟩ (.inl ?_)
      simp
    · refine iff_of_true ⟨_, provenance_time day time (.inr rfl), ?_⟩ (.inl ?_)
      · rw [health_zone]
        simp [Zone.minutes]
      · simp
    · refine iff_of_false ?_ (by simp)
      rintro ⟨instant, hread, -⟩
      rw [provenance_zone] at hread
      cases hread
  | none =>
    rcases hzones with rfl | rfl | ⟨minutes, rfl⟩
    · refine iff_of_false ?_ (by simp)
      rintro ⟨instant, hread, -⟩
      rw [provenance_date day (.inl rfl)] at hread
      cases hread
    · refine iff_of_false ?_ (by simp)
      rintro ⟨instant, hread, -⟩
      rw [provenance_date day (.inr rfl)] at hread
      cases hread
    · exact iff_of_true ⟨_, provenance_offset day minutes, health_offset day minutes⟩
        (.inr ⟨rfl, minutes, rfl⟩)

/-- The health sweeper reads every timestamp. -/
theorem health_ne_none (t : IsoTimestamp) :
    GraphHealthSweeper.parseTimestamp (some (.iso t.toIsoText)) ≠ none := by
  have hzones := t.zones_cases
  obtain ⟨⟨day, time, zones⟩, hone⟩ := t
  simp only at hzones
  cases time <;> rcases hzones with rfl | rfl | ⟨minutes, rfl⟩ <;> exact Option.some_ne_none _

/-! ## The two verdicts -/

theorem sameVerdict {t : IsoText} {instant : Int} (h : BothRead t instant) (cutoff : Int)
    (k : Knowledge) {record : StructureObject} (htype : record.type = VERIFICATION_RECORD_TYPE)
    (hchecked : record.fields.lookup CHECKED_AT_KEY = some (.iso t)) :
    SameVerdict cutoff k record := by
  unfold SameVerdict provenanceVerdict ProvenanceStalenessSweeper.finding GraphHealthSweeper.fresh
  rw [if_neg (not_not.2 htype), hchecked, h.1, h.2]
  dsimp only
  by_cases hcut : cutoff ≤ instant
  · rw [if_pos hcut]
    exact ⟨false, rfl, by rw [decide_eq_true hcut]; rfl⟩
  · rw [if_neg hcut]
    exact ⟨true, rfl, by rw [decide_eq_false hcut]; rfl⟩

/-- The two sweepers agree on a timestamp exactly if it has a time of the day and no offset, or is a
date that an offset follows. -/
theorem readings_agree_iff (t : IsoTimestamp) :
    SameReading t.toIsoText ∧ SameVerdicts t.toIsoText ↔ t.ReadAlike := by
  rw [← aware_iff]
  constructor
  · rintro ⟨haware | ⟨-, hnone⟩, -⟩
    · exact haware
    · exact absurd hnone (health_ne_none t)
  · rintro ⟨instant, h⟩
    exact ⟨.inl ⟨instant, h⟩,
      fun now ttlSeconds k _ htype hchecked => sameVerdict h _ k htype hchecked⟩

/-- A record checked at a time with an offset. -/
def offsetRecord : StructureObject where
  id := "r"
  type := VERIFICATION_RECORD_TYPE
  fields := (∅ : Table String FieldValue).set CHECKED_AT_KEY (.iso ⟨19723, some 0, [.offset 120]⟩)

/-- The offset is read by the health sweeper alone; a date without a time makes the provenance
sweeper raise. A record long past its TTL is fresh to the one only. -/
theorem offset_read_by_one :
    ¬SameReading ⟨19723, some 0, [.offset 120]⟩ ∧ ¬SameReading ⟨19723, none, []⟩ ∧
      ¬SameVerdict (19730 * DAY) ⟨[offsetRecord], []⟩ offsetRecord := by
  refine ⟨?_, ?_, ?_⟩
  · rintro (⟨instant, hread, -⟩ | ⟨-, hnone⟩)
    · cases hread
    · cases hnone
  · rintro (⟨instant, hread, -⟩ | ⟨hnone, -⟩)
    · cases hread
    · cases hnone
  · rintro ⟨stale, hprovenance, hhealth⟩
    cases hprovenance
    cases hhealth

end CksRuntime
