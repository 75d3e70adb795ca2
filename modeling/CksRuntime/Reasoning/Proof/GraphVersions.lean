import CksRuntime.Reasoning.GraphSweep
import Mathlib.Algebra.Order.Field.Basic

/-!
# Two checks of the components

`_check_graph` reads a component's version where its source says, `_version_freshness_score` always
reads a `__version__`. Each loop is described by one of its rounds: the check reports something if
some component is behind its source (`checkGraph_of_resolves`), the score is below 1 if some
component is behind a `__version__` (`score_of_resolves`). Where both are known the comparison is
the same.
-/

set_option autoImplicit false

namespace CksRuntime

open Upstream

section
variable (up : Upstream)

/-- The structure of the component says where it comes from, or that nothing is known. -/
def Resolves (c : GraphObject × Nat) : Prop :=
  ∃ o, up.resolveComponent c.1.componentName c.1.fields = .ok o

/-- The component is behind what `fetch` finds where it comes from. -/
def BehindBy (fetch : Nat → Resolved → Except String String) (c : GraphObject × Nat) : Prop :=
  ∃ r, up.resolveComponent c.1.componentName c.1.fields = .ok (some r) ∧
    ∃ actualVersion, fetch c.2 r = .ok actualVersion ∧ isOutdated c.1.version actualVersion = true

/-- Behind the `__version__` found at its candidate paths. -/
def BehindVersion (c : GraphObject × Nat) : Prop :=
  BehindBy up (fun round r => up.fetchVersion round r.repo r.candidatePaths) c

/-- Behind the `package.json` it is published by. -/
def BehindPackageJson (c : GraphObject × Nat) : Prop :=
  ∃ r, up.resolveComponent c.1.componentName c.1.fields = .ok (some r) ∧ r.source = .packageJson ∧
    ∃ actualVersion, up.fetchPackageJsonVersion c.2 r.repo r.candidatePaths = .ok actualVersion ∧
      isOutdated c.1.version actualVersion = true

/-- Behind what its source says. -/
def BehindSource (c : GraphObject × Nat) : Prop := BehindBy up (GraphAutoUpdateSweeper.fetch up) c

end

variable {up : Upstream} {c : GraphObject × Nat} {cs : List (GraphObject × Nat)}
  {session : GraphSession}

theorem BehindSource.cases (h : BehindSource up c) :
    BehindPackageJson up c ∨ BehindVersion up c := by
  obtain ⟨r, hr, actualVersion, hfetch, hout⟩ := h
  unfold GraphAutoUpdateSweeper.fetch at hfetch
  split at hfetch
  · rename_i hsource
    exact .inl ⟨r, hr, hsource, actualVersion, hfetch, hout⟩
  · exact .inr ⟨r, hr, actualVersion, hfetch, hout⟩

theorem BehindPackageJson.behindSource (h : BehindPackageJson up c) : BehindSource up c := by
  obtain ⟨r, hr, hsource, actualVersion, hfetch, hout⟩ := h
  refine ⟨r, hr, actualVersion, ?_, hout⟩
  rw [GraphAutoUpdateSweeper.fetch, hsource]
  exact hfetch

/-- Which fetch is behind depends on what one resolution gives. -/
theorem behindBy_of_resolved {fetch : Nat → Resolved → Except String String} {r : Resolved}
    (hr : up.resolveComponent c.1.componentName c.1.fields = .ok (some r)) :
    BehindBy up fetch c ↔ ∃ actualVersion, fetch c.2 r = .ok actualVersion ∧
      isOutdated c.1.version actualVersion = true := by
  constructor
  · rintro ⟨r', hr', h⟩
    rw [hr] at hr'
    cases hr'
    exact h
  · exact fun h => ⟨r, hr, h⟩

theorem not_behindBy_of_none {fetch : Nat → Resolved → Except String String}
    (hr : up.resolveComponent c.1.componentName c.1.fields = .ok none) : ¬BehindBy up fetch c := by
  rintro ⟨r, hr', -⟩
  rw [hr] at hr'
  cases hr'

/-! ## The check -/

namespace GraphAutoUpdateSweeper

theorem checkComponent_of_resolves (h : Resolves up c) :
    ∃ o, checkComponent up c.1 c.2 = .ok o ∧ (o.toList ≠ [] ↔ BehindSource up c) := by
  obtain ⟨resolved, hr⟩ := h
  unfold checkComponent
  rw [hr]
  cases resolved with
  | none => exact ⟨none, rfl, iff_of_false (fun h => h rfl) (not_behindBy_of_none hr)⟩
  | some r =>
    rw [BehindSource, behindBy_of_resolved hr]
    cases hfetch : fetch up c.2 r with
    | error e => exact ⟨none, by simp only [bind, Except.bind, hfetch]; rfl, by simp⟩
    | ok actualVersion =>
      by_cases hout : isOutdated c.1.version actualVersion = true
      · exact ⟨some _, by simp only [bind, Except.bind, hfetch, if_pos hout]; rfl, by simp [hout]⟩
      · exact ⟨none, by simp only [bind, Except.bind, hfetch, if_neg hout]; rfl, by simp [hout]⟩

theorem resolves_of_checkComponent {o : Option OutdatedComponent}
    (h : checkComponent up c.1 c.2 = .ok o) : Resolves up c := by
  unfold checkComponent at h
  cases hr : up.resolveComponent c.1.componentName c.1.fields with
  | error e =>
    rw [hr] at h
    cases h
  | ok resolved => exact ⟨resolved, hr⟩

/-- What the loop has collected once every component is resolved. -/
theorem check_of_resolves (h : ∀ c ∈ cs, Resolves up c) (acc : List OutdatedComponent) :
    ∃ l, cs.foldlM (fun outdated c => do
        return outdated ++ (← checkComponent up c.1 c.2).toList) acc = Except.ok l ∧
      (l ≠ [] ↔ acc ≠ [] ∨ ∃ c ∈ cs, BehindSource up c) := by
  induction cs generalizing acc with
  | nil => exact ⟨acc, rfl, by simp⟩
  | cons c cs ih =>
    obtain ⟨o, ho, hbehind⟩ := checkComponent_of_resolves (h c List.mem_cons_self)
    obtain ⟨l, hl, hne⟩ := ih (fun d hd => h d (List.mem_cons_of_mem c hd)) (acc ++ o.toList)
    refine ⟨l, ?_, ?_⟩
    · rw [List.foldlM_cons, ho]
      exact hl
    · rw [hne, List.exists_mem_cons_iff, ← hbehind, ne_eq, List.append_eq_nil_iff, not_and_or,
        or_assoc]

theorem resolves_of_check {acc l : List OutdatedComponent}
    (h : cs.foldlM (fun outdated c => do
      return outdated ++ (← checkComponent up c.1 c.2).toList) acc = Except.ok l) :
    ∀ c ∈ cs, Resolves up c := by
  induction cs generalizing acc with
  | nil => exact fun c hc => absurd hc List.not_mem_nil
  | cons c cs ih =>
    rw [List.foldlM_cons] at h
    cases ho : checkComponent up c.1 c.2 with
    | error e =>
      rw [ho] at h
      cases h
    | ok o =>
      rw [ho] at h
      intro d hd
      rcases List.mem_cons.1 hd with rfl | hd
      · exact resolves_of_checkComponent ho
      · exact ih h d hd

theorem checkGraph_of_resolves (h : ∀ c ∈ session.components, Resolves up c) :
    ∃ l, checkGraph up (some session) = .ok l ∧
      (l ≠ [] ↔ ∃ c ∈ session.components, BehindSource up c) := by
  obtain ⟨l, hl, hne⟩ := check_of_resolves h []
  exact ⟨l, hl, by rw [hne, or_iff_right fun h => h rfl]⟩

end GraphAutoUpdateSweeper

/-! ## The score -/

namespace GraphHealthSweeper

/-- A round counts a component that is not up to date exactly if it is behind. -/
theorem countComponent_of_resolves (h : Resolves up c) {acc : Nat × Nat} (hacc : acc.1 ≤ acc.2) :
    ∃ acc', countComponent up acc c = .ok acc' ∧ acc'.1 ≤ acc'.2 ∧
      (acc'.1 < acc'.2 ↔ acc.1 < acc.2 ∨ BehindVersion up c) := by
  obtain ⟨resolved, hr⟩ := h
  unfold countComponent
  rw [hr]
  cases resolved with
  | none =>
    refine ⟨acc, rfl, hacc, (or_iff_left ?_).symm⟩
    exact not_behindBy_of_none hr
  | some r =>
    rw [BehindVersion, behindBy_of_resolved hr]
    cases hfetch : up.fetchVersion c.2 r.repo r.candidatePaths with
    | error e =>
      refine ⟨acc, by simp only [bind, Except.bind, hfetch]; rfl, hacc, (or_iff_left ?_).symm⟩
      rintro ⟨actualVersion, h, -⟩
      cases h
    | ok actualVersion =>
      by_cases hout : isOutdated c.1.version actualVersion = true
      · refine ⟨(acc.1, acc.2 + 1), by simp only [bind, Except.bind, hfetch, if_pos hout]; rfl,
          Nat.le_succ_of_le hacc, iff_of_true (Nat.lt_succ_of_le hacc) (.inr ?_)⟩
        exact ⟨actualVersion, rfl, hout⟩
      · refine ⟨(acc.1 + 1, acc.2 + 1), by simp only [bind, Except.bind, hfetch, if_neg hout]; rfl,
          Nat.succ_le_succ hacc, ?_⟩
        rw [Nat.succ_lt_succ_iff]
        refine (or_iff_left ?_).symm
        rintro ⟨actualVersion', h, hout'⟩
        cases h
        exact hout hout'

theorem count_of_resolves (h : ∀ c ∈ cs, Resolves up c) (acc : Nat × Nat) (hacc : acc.1 ≤ acc.2) :
    ∃ acc', cs.foldlM (countComponent up) acc = .ok acc' ∧ acc'.1 ≤ acc'.2 ∧
      (acc'.1 < acc'.2 ↔ acc.1 < acc.2 ∨ ∃ c ∈ cs, BehindVersion up c) := by
  induction cs generalizing acc with
  | nil => exact ⟨acc, rfl, hacc, by simp⟩
  | cons c cs ih =>
    obtain ⟨next, hnext, hle, hlt⟩ := countComponent_of_resolves (h c List.mem_cons_self) hacc
    obtain ⟨acc', hacc', hle', hlt'⟩ := ih (fun d hd => h d (List.mem_cons_of_mem c hd)) next hle
    refine ⟨acc', ?_, hle', ?_⟩
    · rw [List.foldlM_cons, hnext]
      exact hacc'
    · rw [hlt', hlt, List.exists_mem_cons_iff, or_assoc]

theorem score_of_resolves (h : ∀ c ∈ session.components, Resolves up c) :
    ∃ score, versionFreshnessScore up session = .ok score ∧
      (score < 1 ↔ ∃ c ∈ session.components, BehindVersion up c) := by
  obtain ⟨⟨upToDate, checked⟩, hcount, hle, hlt⟩ := count_of_resolves h (0, 0) (Nat.le_refl 0)
  refine ⟨if checked = 0 then 1 else (upToDate : ℚ) / checked, ?_, ?_⟩
  · unfold versionFreshnessScore
    rw [hcount]
    rfl
  · rw [or_iff_right (Nat.lt_irrefl 0)] at hlt
    rw [← hlt]
    split
    · rename_i hzero
      subst hzero
      exact iff_of_false (lt_irrefl 1) (Nat.not_lt_zero upToDate)
    · rename_i hpos
      have hchecked : (0 : ℚ) < checked := Nat.cast_pos.2 (Nat.pos_of_ne_zero hpos)
      rw [div_lt_one hchecked, Nat.cast_lt]

end GraphHealthSweeper

/-! ## The two together -/

/-- A graph with outdated components has a score below 1. -/
def ChecksAgree (up : Upstream) (session : GraphSession) : Prop :=
  ∀ outdated, GraphAutoUpdateSweeper.checkGraph up (some session) = .ok outdated → outdated ≠ [] →
    ∃ score, GraphHealthSweeper.versionFreshnessScore up session = .ok score ∧ score < 1

/-- No component is behind its `package.json`, or some component is behind a `__version__`; or the
check raises. -/
def SeenByBoth (up : Upstream) (session : GraphSession) : Prop :=
  (∃ c ∈ session.components, ¬Resolves up c) ∨
    (∀ c ∈ session.components, ¬BehindPackageJson up c) ∨
    ∃ c ∈ session.components, BehindVersion up c

/-- The score falls below 1 for every graph with outdated components, unless all that are outdated
are so by their `package.json` alone. -/
theorem checks_agree_iff (up : Upstream) (session : GraphSession) :
    ChecksAgree up session ↔ SeenByBoth up session := by
  by_cases hall : ∀ c ∈ session.components, Resolves up c
  · obtain ⟨outdated, hcheck, hbehind⟩ := GraphAutoUpdateSweeper.checkGraph_of_resolves hall
    obtain ⟨score, hscore, hlt⟩ := GraphHealthSweeper.score_of_resolves hall
    constructor
    · intro hagree
      by_cases hne : outdated = []
      · refine .inr (.inl fun c hc hjson => ?_)
        exact absurd hne (hbehind.2 ⟨c, hc, hjson.behindSource⟩)
      · obtain ⟨score', hscore', hlt'⟩ := hagree outdated hcheck hne
        rw [hscore] at hscore'
        cases hscore'
        exact .inr (.inr (hlt.1 hlt'))
    · rintro hseen outdated' hcheck' hne
      rw [hcheck] at hcheck'
      cases hcheck'
      refine ⟨score, hscore, hlt.2 ?_⟩
      rcases hseen with ⟨c, hc, hraises⟩ | hjson | hversion
      · exact absurd (hall c hc) hraises
      · obtain ⟨c, hc, hsource⟩ := hbehind.1 hne
        exact ⟨c, hc, hsource.cases.resolve_left (hjson c hc)⟩
      · exact hversion
  · refine iff_of_true (fun outdated hcheck _ => absurd ?_ hall) (.inl ?_)
    · exact GraphAutoUpdateSweeper.resolves_of_check hcheck
    · push Not at hall
      exact hall

/-! ## A component published on npm -/

/-- The fields of a component at 1.0.0. -/
def npmFields : Table String GraphValue :=
  (((∅ : Table String GraphValue).set "version" (.str "1.0.0")).set "version_source"
    (.str "package.json")).set "repo_url" (.str "acme/ui")

/-- The component. -/
def npmComponent : GraphObject where
  id := "c"
  type := "Component"
  name := some "ui"
  fields := npmFields

/-- The session that has it. -/
def npmSession : GraphSession := ⟨some [npmComponent]⟩

/-- Its `package.json`, at 2.0.0. -/
def npmManifest : String := "\x7b\"version\": \"2.0.0\"\x7d"

/-- A network that has that file alone. -/
def npmUpstream : Upstream where
  urlparse url := some ⟨"", url⟩
  safeGet _ url :=
    if url = "https://raw.githubusercontent.com/acme/ui/main/package.json" then
      .response 200 npmManifest
    else .response 404 ""
  loads text :=
    if text = npmManifest then some (some ((∅ : Table String GraphValue).set "version" (.str "2.0.0")))
    else none

/-- A package behind its `package.json` is reported, and the graph scores 1. -/
theorem npm_component_scores_one : ¬ChecksAgree npmUpstream npmSession := by
  intro hagree
  have hcheck : GraphAutoUpdateSweeper.checkGraph npmUpstream (some npmSession) =
      .ok [⟨"ui", .str "1.0.0", "2.0.0"⟩] := by rfl
  obtain ⟨score, hscore, hlt⟩ := hagree _ hcheck (List.cons_ne_nil _ _)
  have hone : GraphHealthSweeper.versionFreshnessScore npmUpstream npmSession = .ok 1 := by rfl
  rw [hone] at hscore
  cases hscore
  exact lt_irrefl _ hlt

end CksRuntime
