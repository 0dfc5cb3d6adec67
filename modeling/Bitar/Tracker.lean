import Bitar.Lib.Runs
import Mathlib.Data.Finset.Basic
import Mathlib.Data.Finset.Insert
import Mathlib.Logic.Function.Basic

/-!
# The tracker under concurrent calls

`AllocateAligned` reserves a memzone and then enters it into the map of the
tracker, without the mutex of the tracker.  `Release` finds the entry, frees the
memzone and erases the entry, all under the mutex.  Between the last two steps
the address of the memzone can be reserved again.

**Results.**
* `Sound.missed_moves`: which step loses a memzone, and that no step finds it again.
* `tracked_iff`: the map is right whenever no call is in progress exactly if no
  entry is made between `rte_memzone_free` and the erasure for that address.
-/

namespace Bitar

universe u v w

/-- Where a thread is in `AllocateAligned` or in `Release`. -/
inductive TrackerPc (A : Type v) (Z : Type w)
  | idle
  /-- After `rte_memzone_reserve_aligned`. -/
  | reserved (memzone : Z)
  /-- After `find`. -/
  | found (addr : A)
  /-- After `rte_memzone_free`. -/
  | freed (addr : A)
deriving DecidableEq

/-- `RtememzoneAllocatorTracker`, with the threads that use it. -/
structure Tracker (T : Type u) (A : Type v) (Z : Type w) where
  /-- The memzones that are reserved from DPDK. -/
  live : Finset Z := ∅
  /-- `allocated_memzones_`. -/
  entries : A → Option Z := fun _ => none
  /-- The memzones whose allocation has returned and whose release has not begun. -/
  returned : Finset Z := ∅
  /-- The thread that holds `mutex_`. -/
  mutex : Option T := none
  pc : T → TrackerPc A Z := fun _ => .idle

namespace Tracker

variable {T : Type u} {A : Type v} {Z : Type w}

/-- The next atomic step of a thread. -/
inductive Action (T : Type u) (Z : Type w)
  | reserve (thread : T) (memzone : Z)
  | emplace (thread : T)
  /-- The beginning of `Release` with the address of a memzone. -/
  | find (thread : T) (memzone : Z)
  | free (thread : T)
  | erase (thread : T)

/-- `Of`. -/
def of (s : Tracker T A Z) (a : A) : Option Z := s.entries a

section Step

variable [DecidableEq T] [DecidableEq A] [DecidableEq Z] (addr : Z → A)

/-- One step of one thread.  DPDK reserves no address that is in use; a memzone
is released at most once, after its allocation has returned. -/
def step (s : Tracker T A Z) : Action T Z → Tracker T A Z
  | .reserve t z =>
      if s.pc t = .idle ∧ ∀ y ∈ s.live, addr y ≠ addr z then
        { s with
          live := insert z s.live
          pc := Function.update s.pc t (.reserved z) }
      else s
  | .emplace t =>
      match s.pc t with
      | .reserved z =>
          { s with
            -- an entry that exists is left as it is
            entries := if s.entries (addr z) = none then
              Function.update s.entries (addr z) (some z) else s.entries
            returned := insert z s.returned
            pc := Function.update s.pc t .idle }
      | _ => s
  | .find t z =>
      if s.pc t = .idle ∧ s.mutex = none ∧ z ∈ s.returned then
        if s.entries (addr z) = none then { s with returned := s.returned.erase z }
        else
          { s with
            returned := s.returned.erase z
            mutex := some t
            pc := Function.update s.pc t (.found (addr z)) }
      else s
  | .free t =>
      match s.pc t with
      | .found a =>
          { s with
            live := (s.entries a).elim s.live s.live.erase
            pc := Function.update s.pc t (.freed a) }
      | _ => s
  | .erase t =>
      match s.pc t with
      | .freed a =>
          { s with
            entries := Function.update s.entries a none
            mutex := none
            pc := Function.update s.pc t .idle }
      | _ => s

/-- What one step can do. -/
inductive Moves (s : Tracker T A Z) : Action T Z → Tracker T A Z → Prop
  | stays (action : Action T Z) (h : ∀ t z, action = .emplace t → s.pc t ≠ .reserved z) :
      Moves s action s
  | reserves {t : T} {z : Z} (hpc : s.pc t = .idle) (hfresh : ∀ y ∈ s.live, addr y ≠ addr z) :
      Moves s (.reserve t z) { s with
        live := insert z s.live
        pc := Function.update s.pc t (.reserved z) }
  | emplaces {t : T} {z : Z} (hpc : s.pc t = .reserved z) :
      Moves s (.emplace t) { s with
        entries := if s.entries (addr z) = none then
          Function.update s.entries (addr z) (some z) else s.entries
        returned := insert z s.returned
        pc := Function.update s.pc t .idle }
  | misses {t : T} {z : Z} (hz : z ∈ s.returned) (hnone : s.entries (addr z) = none) :
      Moves s (.find t z) { s with returned := s.returned.erase z }
  | finds {t : T} {z : Z} (hpc : s.pc t = .idle) (hmutex : s.mutex = none) (hz : z ∈ s.returned)
      (hsome : s.entries (addr z) ≠ none) :
      Moves s (.find t z) { s with
        returned := s.returned.erase z
        mutex := some t
        pc := Function.update s.pc t (.found (addr z)) }
  | frees {t : T} {a : A} (hpc : s.pc t = .found a) :
      Moves s (.free t) { s with
        live := (s.entries a).elim s.live s.live.erase
        pc := Function.update s.pc t (.freed a) }
  | erases {t : T} {a : A} (hpc : s.pc t = .freed a) :
      Moves s (.erase t) { s with
        entries := Function.update s.entries a none
        mutex := none
        pc := Function.update s.pc t .idle }

theorem step_moves (s : Tracker T A Z) (action : Action T Z) :
    Moves addr s action (step addr s action) := by
  cases action with
  | reserve t z =>
      dsimp only [step]
      split_ifs with h
      · exact .reserves h.1 h.2
      · exact .stays _ (by simp)
  | emplace t =>
      dsimp only [step]
      split
      · next z hpc => exact .emplaces hpc
      · next hne =>
          refine .stays _ fun t' z he => ?_
          obtain rfl := Action.emplace.inj he
          exact hne z
  | find t z =>
      dsimp only [step]
      split_ifs with h hnone
      · exact .misses h.2.2 hnone
      · exact .finds h.1 h.2.1 h.2.2 hnone
      · exact .stays _ (by simp)
  | free t =>
      dsimp only [step]
      split
      · next a hpc => exact .frees hpc
      · exact .stays _ (by simp)
  | erase t =>
      dsimp only [step]
      split
      · next a hpc => exact .erases hpc
      · exact .stays _ (by simp)

end Step

section Sound

variable (addr : Z → A)

/-- What holds in every state, whether memzones have been lost or not. -/
structure Sound (s : Tracker T A Z) : Prop where
  distinct : ∀ y ∈ s.live, ∀ z ∈ s.live, addr y = addr z → y = z
  reserved_live : ∀ t z, s.pc t = .reserved z → z ∈ s.live
  reserved_inj : ∀ t t' z, s.pc t = .reserved z → s.pc t' = .reserved z → t = t'
  reserved_entry : ∀ t z, s.pc t = .reserved z →
    s.entries (addr z) = none ∨ ∃ t', s.pc t' = .freed (addr z)
  entries_addr : ∀ a z, s.entries a = some z → addr z = a
  entries_live : ∀ a z, s.entries a = some z → z ∈ s.live ∨ ∃ t, s.pc t = .freed a
  returned_live : ∀ z ∈ s.returned, z ∈ s.live
  returned_pc : ∀ z ∈ s.returned, ∀ t, s.pc t ≠ .reserved z
  holder : ∀ t a, s.pc t = .found a ∨ s.pc t = .freed a → s.mutex = some t
  found_entry : ∀ t a, s.pc t = .found a →
    ∃ z ∈ s.live, s.entries a = some z ∧ z ∉ s.returned

variable {addr} {s s' : Tracker T A Z} {action : Action T Z}

/-- While a thread is past `find`, no other one is. -/
theorem Sound.alone (h : Sound addr s) {t t' : T} {a b : A}
    (ht : s.pc t = .found a ∨ s.pc t = .freed a)
    (ht' : s.pc t' = .found b ∨ s.pc t' = .freed b) : t = t' := by
  have hmutex := h.holder t a ht
  rw [h.holder t' b ht'] at hmutex
  exact (Option.some.inj hmutex).symm

/-- Where no memzone is live, an entry is about to be erased. -/
theorem Sound.entry_of_fresh (h : Sound addr s) {z : Z} (hfresh : ∀ y ∈ s.live, addr y ≠ addr z) :
    s.entries (addr z) = none ∨ ∃ t, s.pc t = .freed (addr z) := by
  cases hentry : s.entries (addr z) with
  | none => exact Or.inl rfl
  | some y =>
      rcases h.entries_live _ y hentry with hy | hfreed
      · exact absurd (h.entries_addr _ y hentry) (hfresh y hy)
      · exact Or.inr hfreed

/-- An entry that is not about to be erased is that of the live memzone. -/
theorem Sound.entry_of_live (h : Sound addr s) {z : Z} (hz : z ∈ s.live)
    (hsome : s.entries (addr z) ≠ none) (hfreed : ∀ t, s.pc t ≠ .freed (addr z)) :
    s.entries (addr z) = some z := by
  obtain ⟨y, hentry⟩ := Option.ne_none_iff_exists'.mp hsome
  have hy : y ∈ s.live := (h.entries_live _ y hentry).resolve_right fun ⟨t, ht⟩ => hfreed t ht
  rw [hentry, h.distinct y hy z hz (h.entries_addr _ y hentry)]

/-- `Of` does not find the memzone, or the entry is about to be erased, although
its allocation has returned. -/
def Missed (addr : Z → A) (s : Tracker T A Z) (z : Z) : Prop :=
  z ∈ s.live ∧ (∀ t, s.pc t ≠ .reserved z) ∧
    (s.entries (addr z) = none ∨ ∃ t, s.pc t = .freed (addr z))

def Lost (addr : Z → A) (s : Tracker T A Z) : Prop := ∃ z, s.Missed addr z

/-- `Emplace` for an address between `rte_memzone_free` and the erasure. -/
def Overlaps (addr : Z → A) (s : Tracker T A Z) : Action T Z → Prop
  | .emplace t => ∃ z t', s.pc t = .reserved z ∧ s.pc t' = .freed (addr z)
  | _ => False

/-- No call is in progress. -/
def Quiescent (s : Tracker T A Z) : Prop := ∀ t, s.pc t = .idle

/-- The map has exactly one entry for each live memzone, at its address. -/
def Tracked (addr : Z → A) (s : Tracker T A Z) : Prop :=
  ∀ a z, s.entries a = some z ↔ z ∈ s.live ∧ addr z = a

/-- A memzone that is not lost, and not about to be entered, is found. -/
theorem Sound.entry_of_not_lost (h : Sound addr s) (hlost : ¬ Lost addr s) {z : Z}
    (hz : z ∈ s.live) (hreserved : ∀ t, s.pc t ≠ .reserved z) : s.entries (addr z) = some z := by
  apply h.entry_of_live hz
  · exact fun hnone => hlost ⟨z, hz, hreserved, Or.inl hnone⟩
  · exact fun t ht => hlost ⟨z, hz, hreserved, Or.inr ⟨t, ht⟩⟩

theorem Sound.tracked_iff_not_lost (h : Sound addr s) (hq : s.Quiescent) :
    s.Tracked addr ↔ ¬ Lost addr s := by
  have hfreed : ∀ a, ¬ ∃ t, s.pc t = .freed a := fun a ⟨t, ht⟩ => by simp [hq t] at ht
  constructor
  · rintro htracked ⟨z, hz, -, hnone | hex⟩
    · simp [(htracked (addr z) z).mpr ⟨hz, rfl⟩] at hnone
    · exact hfreed _ hex
  · intro hlost a z
    constructor
    · intro hentry
      exact ⟨(h.entries_live a z hentry).resolve_right (hfreed a), h.entries_addr a z hentry⟩
    · rintro ⟨hz, rfl⟩
      exact h.entry_of_not_lost hlost hz fun t => by simp [hq t]

variable (addr) in
/-- At the beginning nothing is reserved and no call is in progress. -/
theorem sound_empty : Sound addr ({} : Tracker T A Z) := by
  constructor <;> simp

variable [DecidableEq T] [DecidableEq A] [DecidableEq Z]

omit [DecidableEq A] [DecidableEq Z] in
theorem update_pc_eq {pc : T → TrackerPc A Z} {t t' : T} {new p : TrackerPc A Z} :
    Function.update pc t new t' = p ↔ t' = t ∧ new = p ∨ t' ≠ t ∧ pc t' = p := by
  by_cases h : t' = t
  · subst h
    simp
  · simp [h]

theorem Sound.moves (h : Sound addr s) (hs : Moves addr s action s') : Sound addr s' := by
  cases hs with
  | stays action _ => exact h
  | @reserves t z hpc hz =>
      have hentry := h.entry_of_fresh hz
      obtain ⟨h1, h2, h3, h4, h5, h6, h7, h8, h9, h10⟩ := h
      constructor <;> simp only [update_pc_eq] <;> grind
  | @emplaces t z hpc =>
      obtain ⟨h1, h2, h3, h4, h5, h6, h7, h8, h9, h10⟩ := h
      constructor <;> simp only [update_pc_eq] <;> grind
  | @misses t z hz hnone =>
      obtain ⟨h1, h2, h3, h4, h5, h6, h7, h8, h9, h10⟩ := h
      constructor <;> grind
  | @finds t z hpc hmutex hz hsome =>
      have hfound : s.entries (addr z) = some z := by
        refine h.entry_of_live (h.returned_live z hz) hsome fun t' ht' => ?_
        have := h.holder t' _ (Or.inr ht')
        simp [hmutex] at this
      obtain ⟨h1, h2, h3, h4, h5, h6, h7, h8, h9, h10⟩ := h
      constructor <;> simp only [update_pc_eq] <;> grind
  | @frees t a hpc =>
      obtain ⟨z, hz, he, hr⟩ := h.found_entry t a hpc
      obtain ⟨h1, h2, h3, h4, h5, h6, h7, h8, h9, h10⟩ := h
      constructor <;> simp only [update_pc_eq, he, Option.elim_some] <;> grind
  | @erases t a hpc =>
      have honly : ∀ t' b, s.pc t' = .found b ∨ s.pc t' = .freed b → t' = t := fun t' b ht' =>
        h.alone ht' (Or.inr hpc)
      obtain ⟨h1, h2, h3, h4, h5, h6, h7, h8, h9, h10⟩ := h
      constructor <;> simp only [update_pc_eq] <;> grind

/-- **Step lemma.**  A memzone is missed from such a step on, and for good. -/
theorem Sound.missed_moves (h : Sound addr s) (hs : Moves addr s action s') (y : Z) :
    Missed addr s' y ↔ Missed addr s y ∨
      ∃ t t', action = .emplace t ∧ s.pc t = .reserved y ∧ s.pc t' = .freed (addr y) := by
  cases hs with
  | stays action hne =>
      refine (or_iff_left ?_).symm
      rintro ⟨t, t', rfl, hpc, -⟩
      exact hne t y rfl hpc
  | @reserves t z hpc hz =>
      have hne : y ∈ s.live → y ≠ z := fun hy e => hz y hy (by rw [e])
      simp only [Missed, ne_eq, update_pc_eq, Finset.mem_insert]
      grind
  | @emplaces t z hpc =>
      have hzlive := h.reserved_live t z hpc
      have haddr : y ∈ s.live → y ≠ z → addr y ≠ addr z := fun hy hne he =>
        hne (h.distinct y hy z hzlive he)
      have hinj := h.reserved_inj
      simp only [Missed, ne_eq, update_pc_eq]
      grind
  | misses hz hnone => simp [Missed]
  | @finds t z hpc hmutex hz hsome =>
      simp only [Missed, ne_eq, update_pc_eq]
      grind
  | @frees t a hpc =>
      obtain ⟨z, hz, he, -⟩ := h.found_entry t a hpc
      have haddr := h.entries_addr a z he
      have hnone : ∀ t' b, s.pc t' ≠ .freed b := by
        intro t' b ht'
        obtain rfl := h.alone (Or.inl hpc) (Or.inr ht')
        simp [hpc] at ht'
      have hne : y ∈ s.live → y ≠ z → addr y ≠ a := fun hy hyz e =>
        hyz (h.distinct y hy z hz (e.trans haddr.symm))
      simp only [Missed, ne_eq, update_pc_eq, he, Option.elim_some, Finset.mem_erase]
      grind
  | @erases t a hpc =>
      have honly : ∀ t' b, s.pc t' = .freed b → t' = t := fun t' b ht' =>
        h.alone (Or.inr ht') (Or.inr hpc)
      simp only [Missed, ne_eq, Function.update_apply]
      grind

/-- Memzones are lost in the steps that overlap. -/
theorem Sound.lost_moves (h : Sound addr s) (hs : Moves addr s action s') :
    Lost addr s' ↔ Lost addr s ∨ Overlaps addr s action := by
  simp only [Lost, h.missed_moves hs, exists_or]
  apply or_congr_right
  cases action with
  | emplace t =>
      constructor
      · rintro ⟨y, u, t', he, hpc, hfreed⟩
        obtain rfl := Action.emplace.inj he
        exact ⟨y, t', hpc, hfreed⟩
      · rintro ⟨y, t', hpc, hfreed⟩
        exact ⟨y, t, t', rfl, hpc, hfreed⟩
  | _ => simp [Overlaps]

theorem Sound.run (h : Sound addr s) (actions : List (Action T Z)) :
    Sound addr (Runs.run (step addr) s actions) :=
  Runs.run_invariant (fun _ _ hs => hs.moves (step_moves addr _ _)) actions h

/-- **Run lemma.**  A memzone is lost exactly if some step of the run overlaps. -/
theorem Sound.lost_run (h : Sound addr s) (actions : List (Action T Z)) :
    Lost addr (Runs.run (step addr) s actions) ↔
      Lost addr s ∨
        ¬ Runs.Along (step addr) (fun s action => ¬ Overlaps addr s action) s actions := by
  induction actions generalizing s with
  | nil => simp
  | cons action actions ih =>
      have hs := step_moves addr s action
      rw [Runs.run_cons, ih (h.moves hs), h.lost_moves hs, Runs.along_cons, not_and_or, not_not,
        or_assoc]

variable (T) in
/-- **The tracker under interleaving.**  Whenever no call is in progress, the
map is right exactly if no entry was made between `rte_memzone_free` and the
erasure for its address; and without such a step `Of` finds every memzone whose
allocation has returned, at any time. -/
theorem tracked_iff (addr : Z → A) (actions : List (Action T Z)) :
    let s := Runs.run (step addr) {} actions
    let Separate := Runs.Along (step addr) (fun s action => ¬ Overlaps addr s action) {} actions
    (s.Quiescent → (s.Tracked addr ↔ Separate)) ∧
      (Separate → ∀ z ∈ s.returned, z ∈ s.live ∧ s.of (addr z) = some z) := by
  intro s Separate
  have h : Sound addr s := (sound_empty addr).run actions
  have hlost : ¬ Lost addr s ↔ Separate := by
    have hempty : ¬ Lost addr ({} : Tracker T A Z) := by simp [Lost, Missed]
    rw [(sound_empty addr).lost_run actions, or_iff_right hempty, not_not]
  constructor
  · intro hq
    rw [h.tracked_iff_not_lost hq, hlost]
  · intro hsep z hz
    exact ⟨h.returned_live z hz,
      h.entry_of_not_lost (hlost.mpr hsep) (h.returned_live z hz) (h.returned_pc z hz)⟩

/-- One thread releases the memzone 0 while the other one allocates another. -/
def sampleActions : List (Action Bool Nat) :=
  [.reserve false 0, .emplace false, .reserve true 2, .find false 0, .emplace true, .free false,
    .erase false]

theorem tracked_iff_sample :
    let s := Runs.run (step (fun z : Nat => z / 2)) {} sampleActions
    s.live = {2} ∧ s.Tracked (fun z => z / 2) ∧ ∀ z ∈ s.returned, s.of (z / 2) = some z := by
  have h := tracked_iff Bool (fun z : Nat => z / 2) sampleActions
  have hsep : Runs.Along (step (fun z : Nat => z / 2))
      (fun s action => ¬ Overlaps (fun z => z / 2) s action) {} sampleActions := by
    simp [sampleActions, Overlaps, step, Function.update]
  refine ⟨by decide, (h.1 ?_).mpr hsep, fun z hz => (h.2 hsep z hz).2⟩
  unfold Quiescent
  decide

/-- The memzone 0 is freed, its address is reserved again and entered, which
leaves the old entry as it is, and then the entry is erased. -/
theorem tracked_iff_overlap :
    let s := Runs.run (step (fun z : Nat => z / 2)) ({} : Tracker Bool Nat Nat)
      [.reserve false 0, .emplace false, .find false 0, .free false, .reserve true 1,
        .emplace true, .erase false]
    s.Quiescent ∧ ¬ s.Tracked (fun z => z / 2) ∧
      1 ∈ s.live ∧ 1 ∈ s.returned ∧ s.of (1 / 2) = none := by
  intro s
  have hlive : 1 ∈ s.live := by decide
  have hnone : s.of (1 / 2) = none := by decide
  refine ⟨by unfold Quiescent; decide, fun h => ?_, hlive, by decide, hnone⟩
  have hsome := (h 0 1).mpr ⟨hlive, rfl⟩
  exact absurd hsome (by simp [show s.entries 0 = none from hnone])

end Sound

end Tracker

end Bitar
