import Mathlib.Data.List.Basic

/-!
# Timestamps as texts

An ISO 8601 text by its parts: a date, the time of the day if it has one, and the zone marks that
follow. `fromisoformat` is Python's: it takes one zone mark at most, and a date followed by an
offset for a date with a time, whose separator is the sign. Instants are in microseconds since the
epoch.
-/

set_option autoImplicit false

namespace IsoTime

/-- What may follow the time of day. -/
inductive Zone
  | utc
  | offset (minutes : Int)
deriving DecidableEq

/-- A text `fromisoformat` takes, by what it says. -/
structure IsoText where
  /-- Days since the epoch. -/
  day : Int
  /-- Microseconds since midnight. -/
  time : Option Nat
  zones : List Zone := []
deriving DecidableEq

/-- A `datetime`, with a zone or without. -/
inductive PyDatetime
  | aware (instant : Int)
  | naive (localTime : Int)
deriving DecidableEq

/-- In microseconds. -/
def SECOND : Int := 1000000

/-- In microseconds. -/
def MINUTE : Int := 60 * SECOND

/-- In microseconds. -/
def DAY : Int := 86400 * SECOND

/-- The minutes east of UTC. -/
def Zone.minutes : Zone → Int
  | .utc => 0
  | .offset minutes => minutes

namespace IsoText

/-- An offset after a date is a time to Python, and its sign the separator. -/
def separated (t : IsoText) : IsoText :=
  match t.time, t.zones with
  | none, .offset minutes :: zones => ⟨t.day, some (minutes.natAbs * 60000000), zones⟩
  | _, _ => t

/-- The time as written, in microseconds since the epoch. -/
def localTime (t : IsoText) : Int := t.day * DAY + t.time.getD 0

/-- The instant a text means, in UTC where it names no zone. -/
def instant (t : IsoText) : Option Int :=
  match t.separated.zones with
  | [] => some t.separated.localTime
  | [zone] => some (t.separated.localTime - zone.minutes * MINUTE)
  | _ => none

/-- A `Z` after a date is a separator that no time follows. -/
def fromisoformat (t : IsoText) : Option PyDatetime :=
  match t.separated.time, t.separated.zones with
  | _, [] => some (.naive t.separated.localTime)
  | some _, [zone] => some (.aware (t.separated.localTime - zone.minutes * MINUTE))
  | _, _ => none

/-- `removesuffix("Z")`. -/
def removeZ (t : IsoText) : IsoText :=
  if t.zones.getLast? = some .utc then { t with zones := t.zones.dropLast } else t

/-- `+ "+00:00"`. -/
def appendUtc (t : IsoText) : IsoText := { t with zones := t.zones ++ [.offset 0] }

/-- How a text without an offset is read in UTC. -/
def readUtc (t : IsoText) : Option PyDatetime := t.removeZ.appendUtc.fromisoformat

theorem removeZ_concat (day : Int) (time : Option Nat) (init : List Zone) (last : Zone) :
    removeZ ⟨day, time, init ++ [last]⟩ =
      if last = .utc then ⟨day, time, init⟩ else ⟨day, time, init ++ [last]⟩ := by
  unfold removeZ
  simp only [List.getLast?_concat, Option.some.injEq, List.dropLast_concat]

/-- A second zone mark is too many. -/
theorem fromisoformat_append (day : Int) (time : Nat) {zones : List Zone} (h : zones ≠ []) :
    fromisoformat ⟨day, some time, zones ++ [.offset 0]⟩ = none := by
  cases zones with
  | nil => exact absurd rfl h
  | cons zone zones => cases zones <;> rfl

theorem readUtc_some (day : Int) (time : Nat) (zones : List Zone) :
    readUtc ⟨day, some time, zones⟩ =
      if zones = [] ∨ zones = [.utc] then some (.aware (day * DAY + time)) else none := by
  have hutc : fromisoformat ⟨day, some time, [.offset 0]⟩ = some (.aware (day * DAY + time)) := by
    simp [fromisoformat, separated, localTime, Zone.minutes]
  unfold readUtc
  rcases List.eq_nil_or_concat' zones with h | ⟨init, last, h⟩
  · subst h
    exact hutc
  · subst h
    rw [removeZ_concat]
    cases last with
    | utc =>
      rw [if_pos rfl]
      cases init with
      | nil => exact hutc
      | cons zone init =>
        rw [if_neg (by simp)]
        exact fromisoformat_append day time (List.cons_ne_nil zone init)
    | offset minutes =>
      rw [if_neg Zone.noConfusion, if_neg (by cases init <;> simp)]
      exact fromisoformat_append day time (by simp)

theorem readUtc_date (day : Int) {zones : List Zone} (h : zones = [] ∨ zones = [.utc]) :
    readUtc ⟨day, none, zones⟩ = some (.naive (day * DAY)) := by
  rcases h with h | h <;> subst h <;>
    simp [readUtc, removeZ, appendUtc, fromisoformat, separated, localTime]

/-- After a date an offset is its time, here as well. -/
theorem readUtc_separated (day minutes : Int) (zones : List Zone) :
    readUtc ⟨day, none, .offset minutes :: zones⟩ =
      readUtc ⟨day, some (minutes.natAbs * 60000000), zones⟩ := by
  rcases List.eq_nil_or_concat' zones with h | ⟨init, last, h⟩
  · subst h
    rfl
  · subst h
    unfold readUtc
    rw [removeZ_concat, ← List.cons_append, removeZ_concat]
    split <;> rfl

theorem readUtc_utc (day : Int) (zone : Zone) (zones : List Zone) :
    readUtc ⟨day, none, .utc :: zone :: zones⟩ = none := by
  rcases List.eq_nil_or_concat' (zone :: zones) with h | ⟨init, last, h⟩
  · cases h
  · rw [h, ← List.cons_append]
    unfold readUtc
    rw [removeZ_concat]
    have hmany : ∀ zs : List Zone, fromisoformat ⟨day, none, .utc :: zs ++ [.offset 0]⟩ = none := by
      intro zs
      cases zs <;> rfl
    split
    · exact hmany init
    · exact hmany (init ++ [last])

/-- One zone mark is too many, other than a last `Z`. -/
theorem readUtc_eq (t : IsoText) : t.readUtc =
    if t.separated.zones = [] ∨ t.separated.zones = [.utc] then
      some (if t.separated.time.isSome then .aware t.separated.localTime
        else .naive t.separated.localTime)
    else none := by
  obtain ⟨day, time, zones⟩ := t
  cases time with
  | some time =>
    rw [readUtc_some]
    rfl
  | none =>
    cases zones with
    | nil =>
      rw [readUtc_date day (.inl rfl)]
      simp [separated, localTime]
    | cons zone zones =>
      cases zone with
      | offset minutes =>
        rw [readUtc_separated, readUtc_some]
        rfl
      | utc =>
        cases zones with
        | nil =>
          rw [readUtc_date day (.inr rfl)]
          simp [separated, localTime]
        | cons zone zones =>
          rw [readUtc_utc, if_neg (by simp [separated])]

/-- What is read as an instant is the one the text means. -/
theorem instant_of_readUtc {t : IsoText} {i : Int} (h : t.readUtc = some (.aware i)) :
    t.instant = some i := by
  rw [readUtc_eq] at h
  split at h
  · rename_i hzones
    split at h
    · cases h
      rcases hzones with hzones | hzones <;> simp [instant, hzones, Zone.minutes]
    · cases h
  · cases h

end IsoText

end IsoTime
