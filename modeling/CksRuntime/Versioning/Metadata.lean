import CksRuntime.Core.Interface

/-!
# Metadata

`RuntimeSession.metadata`, a dict whose values may be anything. The Runtime reads two of its keys;
the rest is the callers', and what storage makes of it is what JSON does: a value comes back as it
was or as another, or `json.dumps` raises.
-/

set_option autoImplicit false

namespace CksRuntime

/-! ## Dicts -/

namespace Dict

variable {V W : Type}

/-- The values replaced. -/
def map (f : V → W) (d : Dict V) : Dict W where
  entries := d.entries.map (Sigma.map id fun _ => f)
  nodupKeys := by
    obtain ⟨entries, hnodup⟩ := d
    induction entries using Quotient.inductionOn with
    | h l => exact List.NodupKeys.map₂ (fun _ => f) l hnodup

theorem entries_map (f : V → W) (d : Dict V) :
    (d.map f).entries = d.entries.map (Sigma.map id fun _ => f) := rfl

theorem map_map_of_idem {f : V → V} (h : ∀ v, f (f v) = f v) (d : Dict V) :
    (d.map f).map f = d.map f := by
  apply Finmap.ext
  rw [entries_map, entries_map, Multiset.map_map]
  refine Multiset.map_congr rfl fun e _ => ?_
  simp [Sigma.map, h]

/-- Of every value. -/
def All (P : V → Prop) (d : Dict V) : Prop := ∀ e ∈ d.entries, P e.2

instance (P : V → Prop) [DecidablePred P] (d : Dict V) : Decidable (d.All P) :=
  inferInstanceAs (Decidable (∀ e ∈ d.entries, P e.2))

theorem all_map {P : W → Prop} {f : V → W} {d : Dict V} :
    (d.map f).All P ↔ d.All fun v => P (f v) := by
  rw [All, entries_map]
  exact Multiset.forall_mem_map_iff

theorem All.imp {P Q : V → Prop} {d : Dict V} (h : ∀ v, P v → Q v) (hd : d.All P) : d.All Q :=
  fun e he => h _ (hd e he)

end Dict

/-! ## Values -/

/-- A value in a session's `metadata`, by what JSON makes of it. -/
inductive MetadataValue
  | text (s : String)
  /-- Any other that comes back as it was, by what `json.dumps` writes for it. -/
  | json (written : String)
  /-- One that comes back as another: a tuple, say, or a dict with keys that are no strings. -/
  | respelled (value written : String)
  /-- One that `json.dumps` raises on, and whether `deepcopy` takes it. -/
  | refused (value : String) (copied : Bool)
  deriving DecidableEq

namespace MetadataValue

/-- `json.dumps` takes it. -/
def Dumped : MetadataValue → Prop
  | .refused _ _ => False
  | _ => True

instance : DecidablePred Dumped
  | .refused _ _ => isFalse id
  | .text _ | .json _ | .respelled _ _ => isTrue trivial

/-- `deepcopy` takes it. -/
def Copied : MetadataValue → Prop
  | .refused _ copied => copied
  | _ => True

instance : DecidablePred Copied
  | .refused _ copied => inferInstanceAs (Decidable (copied = true))
  | .text _ | .json _ | .respelled _ _ => isTrue trivial

theorem Dumped.copied {v : MetadataValue} (h : v.Dumped) : v.Copied := by
  cases v with
  | refused value copied => cases h
  | _ => trivial

/-- `json.loads(json.dumps(value))`, where that does not raise. -/
def reload : MetadataValue → MetadataValue
  | .respelled _ written => .json written
  | value => value

theorem reload_reload (v : MetadataValue) : v.reload.reload = v.reload := by
  cases v <;> rfl

theorem dumped_reload {v : MetadataValue} : v.reload.Dumped ↔ v.Dumped := by
  cases v <;> exact Iff.rfl

end MetadataValue

/-! ## The version vector's value -/

/-- The value under `VERSION_VECTOR_KEY`. A dict is split into its int-valued entries and the others
(booleans, floats, strings, …), which `from_metadata` skips. -/
inductive RawVector
  | notDict (value : MetadataValue)
  | dict (ints : Dict Int) (malformed : Dict MetadataValue)
  deriving DecidableEq

namespace RawVector

/-- Of every value that is not an int. -/
def All (P : MetadataValue → Prop) : RawVector → Prop
  | .notDict value => P value
  | .dict _ malformed => malformed.All P

instance (P : MetadataValue → Prop) [DecidablePred P] : DecidablePred (All P)
  | .notDict value => inferInstanceAs (Decidable (P value))
  | .dict _ malformed => inferInstanceAs (Decidable (malformed.All P))

theorem All.imp {P Q : MetadataValue → Prop} {raw : RawVector} (h : ∀ v, P v → Q v)
    (hraw : raw.All P) : raw.All Q := by
  cases raw with
  | notDict value => exact h value hraw
  | dict ints malformed => exact Dict.All.imp h hraw

/-- What JSON gives back for it. -/
def reload : RawVector → RawVector
  | .notDict value => .notDict value.reload
  | .dict ints malformed => .dict ints (malformed.map MetadataValue.reload)

theorem reload_reload (raw : RawVector) : raw.reload.reload = raw.reload := by
  cases raw with
  | notDict value => exact congrArg notDict value.reload_reload
  | dict ints malformed =>
    exact congrArg (dict ints) (malformed.map_map_of_idem MetadataValue.reload_reload)

theorem dumped_reload {raw : RawVector} :
    raw.reload.All MetadataValue.Dumped ↔ raw.All MetadataValue.Dumped := by
  cases raw with
  | notDict value => exact MetadataValue.dumped_reload
  | dict ints malformed =>
    simp only [reload, All, Dict.all_map, MetadataValue.dumped_reload]

end RawVector

/-! ## Metadata -/

/-- A session's `metadata`: the two keys the Runtime reads, and the rest. -/
structure Metadata where
  nodeId : Option String := none
  versionVector : Option RawVector := none
  extra : Dict MetadataValue := ∅
  deriving DecidableEq

/-- What a caller adds to a session's metadata; `node_id` may be there with `None`. -/
structure MetadataItems where
  nodeId : Option (Option String) := none
  versionVector : Option RawVector := none
  extra : Dict MetadataValue := ∅

namespace Metadata

/-- `metadata.update(items)`. -/
def update (m : Metadata) (items : MetadataItems) : Metadata where
  nodeId := items.nodeId.getD m.nodeId
  versionVector := items.versionVector.or m.versionVector
  extra := items.extra ∪ m.extra

/-- Of every value that is not read as a node id or a clock. -/
def All (P : MetadataValue → Prop) (m : Metadata) : Prop :=
  (∀ raw ∈ m.versionVector, raw.All P) ∧ m.extra.All P

instance (P : MetadataValue → Prop) [DecidablePred P] (m : Metadata) : Decidable (m.All P) :=
  inferInstanceAs (Decidable (_ ∧ _))

theorem All.imp {P Q : MetadataValue → Prop} {m : Metadata} (h : ∀ v, P v → Q v) (hm : m.All P) :
    m.All Q :=
  ⟨fun raw hraw => (hm.1 raw hraw).imp h, Dict.All.imp h hm.2⟩

/-- `json.dumps(metadata)` does not raise. -/
abbrev Dumped (m : Metadata) : Prop := m.All MetadataValue.Dumped

/-- `deepcopy(metadata)` does not raise. -/
abbrev Copied (m : Metadata) : Prop := m.All MetadataValue.Copied

theorem Dumped.copied {m : Metadata} (h : m.Dumped) : m.Copied :=
  All.imp (fun _ => MetadataValue.Dumped.copied) h

/-- `json.loads(json.dumps(metadata))`, where that does not raise. -/
def reload (m : Metadata) : Metadata where
  nodeId := m.nodeId
  versionVector := m.versionVector.map RawVector.reload
  extra := m.extra.map MetadataValue.reload

theorem reload_reload (m : Metadata) : m.reload.reload = m.reload := by
  obtain ⟨nodeId, raw, extra⟩ := m
  have hextra := extra.map_map_of_idem MetadataValue.reload_reload
  cases raw with
  | none => simp [reload, hextra]
  | some raw => simp [reload, hextra, raw.reload_reload]

theorem dumped_reload {m : Metadata} : m.reload.Dumped ↔ m.Dumped := by
  obtain ⟨nodeId, raw, extra⟩ := m
  refine and_congr ?_ ?_
  · cases raw with
    | none => simp [reload]
    | some raw => simp [reload, RawVector.dumped_reload]
  · simp only [reload, Dict.all_map, MetadataValue.dumped_reload]

/-- Metadata that JSON gives back as it was. -/
structure Stable (m : Metadata) : Prop where
  dumped : m.Dumped
  reload : m.reload = m

theorem stable_new (nodeId : Option String) : ({ nodeId } : Metadata).Stable := by
  refine ⟨⟨fun raw hraw => ?_, fun e he => absurd he (Multiset.notMem_zero e)⟩, rfl⟩
  cases hraw

end Metadata

/-- What a caller adds comes back from JSON as it was. -/
def MetadataItems.Stable (items : MetadataItems) : Prop := (Metadata.update {} items).Stable

theorem MetadataItems.Stable.update {items : MetadataItems} (h : items.Stable)
    (nodeId : Option String) : (Metadata.update { nodeId } items).Stable := by
  obtain ⟨hdumped, hreload⟩ := h
  refine ⟨hdumped, ?_⟩
  have hraw := congrArg Metadata.versionVector hreload
  have hextra := congrArg Metadata.extra hreload
  exact congrArg₂ (Metadata.mk (items.nodeId.getD nodeId)) hraw hextra

end CksRuntime
