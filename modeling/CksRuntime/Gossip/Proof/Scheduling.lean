import CksRuntime.Gossip.Scheduling
import CksRuntime.Lib.Lockstep

/-!
# The backoff of a peer

A call doubles the base backoff for every failure in a row and caps it at the maximum (`capped`), as
long as the power of two is a float and so is the result in milliseconds (`recordFailure_ok`);
beyond that it raises (`recordFailure_error`). `Tracked` is what the records keep of the last
failure; with it a call meets its bounds exactly if it does not raise (`backoff_bounded_iff`).
-/

set_option autoImplicit false

namespace CksRuntime

open Binary64 Effect Lockstep

namespace PeerScheduler

variable (c : BackoffConfig)

/-! ## The backoff -/

/-- The base backoff, doubled `e` times, or the maximum. -/
def capped (e : Nat) : Double :=
  if h : c.baseBackoffS.units * 2 ^ e < c.maxBackoffS.units then
    ⟨c.baseBackoffS.units * 2 ^ e, round_scale c.baseBackoffS e 0,
      h.trans c.maxBackoffS.finite⟩
  else c.maxBackoffS

theorem capped_units (e : Nat) :
    (capped c e).units = min (c.baseBackoffS.units * 2 ^ e) c.maxBackoffS.units := by
  unfold capped
  split
  · rename_i h
    exact (min_eq_left h.le).symm
  · rename_i h
    exact (min_eq_right (not_lt.1 h)).symm

theorem base_le_capped (e : Nat) : c.baseBackoffS.units ≤ (capped c e).units := by
  rw [capped_units]
  exact le_min (Nat.le_mul_of_pos_right _ (Nat.two_pow_pos e)) c.base_le_max

theorem capped_le_max (e : Nat) : (capped c e).units ≤ c.maxBackoffS.units := by
  rw [capped_units]
  exact min_le_right _ _

theorem capped_mono {e e' : Nat} (h : e ≤ e') : (capped c e).units ≤ (capped c e').units := by
  rw [capped_units, capped_units]
  exact min_le_min_right _ (Nat.mul_le_mul_left _ (Nat.pow_le_pow_right (by decide) h))

/-- The product is exact, or out of range and so beyond the maximum. -/
theorem minOf_mul {e : Nat} {factor : Double} (h : factor.units = 2 ^ (e + scale)) :
    minOf (mul c.baseBackoffS factor) c.maxBackoffS = capped c e := by
  have hround : round (c.baseBackoffS.units * factor.units) scale =
      c.baseBackoffS.units * 2 ^ e := by
    rw [h, round_scale]
  apply Double.eq_of_units
  rw [capped_units]
  cases hmul : mul c.baseBackoffS factor with
  | none =>
    have hlimit := ofRatio_eq_none.1 hmul
    rw [hround] at hlimit
    exact (min_eq_right (c.maxBackoffS.finite.le.trans hlimit)).symm
  | some x =>
    have hx := ofRatio_eq_some.1 hmul
    rw [hround] at hx
    rw [hx]
    unfold minOf
    dsimp only
    split
    · rename_i hlt
      exact (min_eq_right hlt.le).symm
    · rename_i hlt
      exact (min_eq_left (not_lt.1 hlt)).symm

/-- 1000.0 -/
def thousand : Double := small 1000 (by decide)

theorem orRaise_some (x : Double) : orRaise (some x) = pure x := rfl

theorem toFloat_thousand : toFloat 1000 = pure thousand := by
  rw [toFloat, ofNat_of_le (by decide), orRaise_some, thousand]

/-! ## The records -/

theorem statsFor_set (stats : Peers) (peer : String) (s : PeerStats) (peer' : String) :
    statsFor (stats.set peer s) peer' = if peer' = peer then s else statsFor stats peer' := by
  unfold statsFor
  rw [Table.lookup_set]
  split <;> rfl

theorem statsFor_set_self (stats : Peers) (peer : String) (s : PeerStats) :
    statsFor (stats.set peer s) peer = s := by
  rw [statsFor_set, if_pos rfl]

theorem step_failure (stats : Peers) (peer : String) (nowMs : Int) :
    step c stats (.failure peer nowMs) = stateOf (recordFailure c peer nowMs stats) := rfl

/-- The record of a peer with one more failure. -/
def counted (s : PeerStats) (nowMs : Int) : PeerStats :=
  { s with
    failures := s.failures + 1
    consecutiveFailures := s.consecutiveFailures + 1
    lastAttemptMs := some nowMs }

/-- Before the call there are fewer than 1024 failures in a row, and the doubled base or the maximum
is a float in milliseconds, too. -/
def InRange (stats : Peers) (peer : String) : Prop :=
  (statsFor stats peer).consecutiveFailures < 1024 ∧
    mul (capped c (statsFor stats peer).consecutiveFailures) thousand ≠ none

/-- The failure is counted in any case. -/
theorem recordFailure_run (stats : Peers) (peer : String) (nowMs : Int) :
    recordFailure c peer nowMs stats =
      (do
        let factor ← toFloat (2 ^ (statsFor stats peer).consecutiveFailures)
        let backoffMs ← toInt (mul (minOf (mul c.baseBackoffS factor) c.maxBackoffS) thousand)
        modify fun stats =>
          stats.set peer { statsFor stats peer with backoffUntilMs := nowMs + backoffMs } :
        Call PUnit) (stats.set peer (counted (statsFor stats peer) nowMs)) := by
  unfold recordFailure
  rw [bind_modify_run, bind_get_run]
  dsimp only
  rw [statsFor_set_self, toFloat_thousand]
  dsimp only
  rw [Nat.add_sub_cancel, counted]
  simp only [pure_bind]

theorem recordFailure_ok {stats : Peers} {peer : String} {m : Double} (nowMs : Int)
    (hlt : (statsFor stats peer).consecutiveFailures < 1024)
    (hm : mul (capped c (statsFor stats peer).consecutiveFailures) thousand = some m) :
    recordFailure c peer nowMs stats =
      .ok ⟨⟩ ((stats.set peer (counted (statsFor stats peer) nowMs)).set peer
        { counted (statsFor stats peer) nowMs with
          backoffUntilMs := nowMs + (trunc m : Nat) }) := by
  obtain ⟨factor, hfactor, hunits⟩ := ofNat_two_pow hlt
  rw [recordFailure_run, toFloat, hfactor, orRaise_some, bind_pure_run, minOf_mul c hunits, hm,
    toInt, orRaise_some, pure_bind, bind_pure_run, modify_run, statsFor_set_self]

theorem recordFailure_error {stats : Peers} {peer : String} (nowMs : Int)
    (h : ¬InRange c stats peer) :
    recordFailure c peer nowMs stats =
      .error .overflowError (stats.set peer (counted (statsFor stats peer) nowMs)) := by
  rw [recordFailure_run, toFloat]
  by_cases hlt : (statsFor stats peer).consecutiveFailures < 1024
  · have hnone : mul (capped c (statsFor stats peer).consecutiveFailures) thousand = none := by
      by_contra hsome
      exact h ⟨hlt, hsome⟩
    obtain ⟨factor, hfactor, hunits⟩ := ofNat_two_pow hlt
    rw [hfactor, orRaise_some, bind_pure_run, minOf_mul c hunits, hnone]
    rfl
  · rw [ofNat_two_pow_eq_none (not_lt.1 hlt)]
    rfl

theorem mem_eligiblePeers {stats : Peers} {peer : String} {t : Int} :
    peer ∈ eligiblePeers stats t ↔ ∃ s, stats.lookup peer = some s ∧ s.backoffUntilMs ≤ t := by
  simp [eligiblePeers, Table.mem_rows]

/-! ## What the calls owe -/

/-- A failure is recorded without an exception, the backoff is a time between the base and the
maximum, to the millisecond, and no shorter than that of the failure before it in a row. -/
def Bounded (stats : Peers) : Event → Prop
  | .failure peer nowMs => ∃ stats', recordFailure c peer nowMs stats = .ok ⟨⟩ stats' ∧
      ∃ b m : Double, c.baseBackoffS.units ≤ b.units ∧ b.units ≤ c.maxBackoffS.units ∧
        mul b thousand = some m ∧
        (statsFor stats' peer).backoffUntilMs = nowMs + (trunc m : Nat) ∧
        ∀ lastMs, (statsFor stats peer).consecutiveFailures ≠ 0 →
          (statsFor stats peer).lastAttemptMs = some lastMs →
          (statsFor stats peer).backoffUntilMs - lastMs ≤ (trunc m : Nat)
  | _ => True

/-- A failure's backoff fits a float. -/
def InRangeAt (stats : Peers) : Event → Prop
  | .failure peer _ => InRange c stats peer
  | _ => True

/-- The record of a peer that is failing has the backoff of its last failure. -/
def Current (s : PeerStats) : Prop :=
  s.consecutiveFailures = 0 ∨ ∃ e m lastMs, s.consecutiveFailures = e + 1 ∧
    s.lastAttemptMs = some lastMs ∧ mul (capped c e) thousand = some m ∧
    s.backoffUntilMs = lastMs + (trunc m : Nat)

/-- Every peer's backoff is that of its failures in a row. -/
def Tracked (stats : Peers) : Prop := ∀ peer, Current c (statsFor stats peer)

variable {c} {stats : Peers}

theorem Tracked.set (h : Tracked c stats) (peer : String) {s : PeerStats} (hs : Current c s) :
    Tracked c (stats.set peer s) := by
  intro peer'
  rw [statsFor_set]
  split
  · exact hs
  · exact h peer'

theorem tracked_init (peers : List String) : Tracked c (init peers) := by
  have hset : ∀ stats : Peers, Tracked c stats →
      Tracked c (peers.foldl (fun stats peer => stats.set peer {}) stats) := by
    induction peers with
    | nil => exact fun _ h => h
    | cons peer peers ih => exact fun stats h => ih _ (h.set peer (.inl rfl))
  exact hset ∅ fun peer => .inl rfl

theorem bounded_iff (h : Tracked c stats) (e : Event) :
    Bounded c stats e ↔ InRangeAt c stats e := by
  cases e with
  | add | remove | success => exact Iff.rfl
  | failure peer nowMs =>
    constructor
    · rintro ⟨stats', hrun, -⟩
      by_contra hrange
      rw [recordFailure_error c nowMs hrange] at hrun
      cases hrun
    · rintro ⟨hlt, hsome⟩
      obtain ⟨m, hm⟩ := Option.ne_none_iff_exists'.1 hsome
      refine ⟨_, recordFailure_ok c nowMs hlt hm, capped c _, m, base_le_capped c _,
        capped_le_max c _, hm, ?_, ?_⟩
      · rw [statsFor_set_self]
      · intro lastMs hfailing hlast
        obtain hzero | ⟨e, m', lastMs', he, hlast', hm', huntil⟩ := h peer
        · exact absurd hzero hfailing
        · rw [hlast] at hlast'
          cases hlast'
          rw [he] at hm
          have hms : trunc m' ≤ trunc m :=
            trunc_mono (mul_mono (capped_mono c (Nat.le_succ e)) hm' hm)
          rw [huntil]
          omega

theorem Tracked.step (h : Tracked c stats) (e : Event) (hrange : InRangeAt c stats e) :
    Tracked c (step c stats e) := by
  cases e with
  | add peer =>
    intro peer'
    unfold PeerScheduler.step addPeer statsFor
    rw [Table.lookup_insertNew]
    split
    · exact h peer
    · exact h peer'
  | remove peer =>
    intro peer'
    unfold PeerScheduler.step removePeer statsFor
    rw [Table.lookup_erase_eq]
    split
    · exact .inl rfl
    · exact h peer'
  | success peer nowMs => exact h.set peer (.inl rfl)
  | failure peer nowMs =>
    obtain ⟨hlt, hsome⟩ := hrange
    obtain ⟨m, hm⟩ := Option.ne_none_iff_exists'.1 hsome
    intro peer'
    rw [step_failure, recordFailure_ok c nowMs hlt hm, stateOf_ok, statsFor_set]
    split
    · exact .inr ⟨_, m, nowMs, rfl, rfl, hm, rfl⟩
    · rename_i hne
      rw [statsFor_set, if_neg hne]
      exact h peer'

/-- Every failure of a run meets its bounds exactly if before each there are fewer than 1024
failures in a row and the milliseconds are in range. -/
theorem backoff_bounded_iff (c : BackoffConfig) (peers : List String) (events : List Event) :
    Throughout (step c) (Bounded c) events (init peers) ↔
      Throughout (step c) (InRangeAt c) events (init peers) :=
  throughout_iff (fun _ e h => bounded_iff h e) (fun _ e h => h.step e) events _
    (tracked_init peers)

/-! ## A peer that is down -/

theorem consecutiveFailures_step (c : BackoffConfig) (stats : Peers) (peer : String) (nowMs : Int) :
    (statsFor (step c stats (.failure peer nowMs)) peer).consecutiveFailures =
      (statsFor stats peer).consecutiveFailures + 1 := by
  by_cases hrange : InRange c stats peer
  · obtain ⟨m, hm⟩ := Option.ne_none_iff_exists'.1 hrange.2
    rw [step_failure, recordFailure_ok c nowMs hrange.1 hm, stateOf_ok, statsFor_set_self]
    rfl
  · rw [step_failure, recordFailure_error c nowMs hrange, stateOf_error, statsFor_set_self]
    rfl

/-- Failures are counted without bound. -/
theorem consecutiveFailures_replicate (c : BackoffConfig) (peer : String) (nowMs : Int) (n : Nat)
    (stats : Peers) :
    (statsFor ((List.replicate n (.failure peer nowMs)).foldl (step c) stats)
        peer).consecutiveFailures =
      (statsFor stats peer).consecutiveFailures + n := by
  induction n generalizing stats with
  | zero => rfl
  | succ n ih =>
    rw [List.replicate_succ, List.foldl_cons, ih, consecutiveFailures_step]
    omega

/-- The default backoffs, of 1 and 300 seconds. -/
def defaultBackoff : BackoffConfig where
  baseBackoffS := small 1 (by decide)
  maxBackoffS := small 300 (by decide)
  base_pos := Nat.mul_pos (by decide) (Nat.two_pow_pos scale)
  base_le_max := Nat.mul_le_mul_right _ (by decide)

/-- The 1025th failure in a row raises. -/
theorem overflow_after_1024_failures :
    ¬Throughout (step defaultBackoff) (Bounded defaultBackoff)
      (List.replicate 1025 (.failure "p" 0)) (init ["p"]) := by
  intro h
  rw [List.replicate_succ'] at h
  obtain ⟨stats', hrun, -⟩ := h.last
  have hcount := consecutiveFailures_replicate defaultBackoff "p" 0 1024 (init ["p"])
  have hrange : ¬InRange defaultBackoff
      ((List.replicate 1024 (.failure "p" 0)).foldl (step defaultBackoff) (init ["p"])) "p" := by
    intro hrange
    have hlt := hrange.1
    rw [hcount] at hlt
    omega
  rw [recordFailure_error defaultBackoff 0 hrange] at hrun
  cases hrun

end PeerScheduler

end CksRuntime
