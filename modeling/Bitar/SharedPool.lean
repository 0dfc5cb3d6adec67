import Bitar.MemzoneOwnership
import Bitar.Tracker
import Mathlib.Data.Finset.Filter
import Mathlib.Data.Finset.Option

/-!
# Device memories that share a pool

All device memories reserve their memzones from one `Rtememzone` pool, and so do
the users of the pool who allocate buffers from it, each on a thread of its own.
`Put` looks an address up in the tracker, which knows the memzones of everybody,
and then, under the mutex, in the set of the memzones that its own device memory
has taken.

`Recycle` gets any list of buffers.  The addresses may repeat, point into the
memzones of other devices or into ordinary memory, or be stale.

**Results.**
* `Zones.Tracked.recyclesExactly`: what `Recycle` counts and what it moves.
* `SharedPool.run_separate`: nobody holds what another one holds, and the tracker
  finds whatever is held, as long as no entry is made between `rte_memzone_free`
  and the erasure for its address.
-/

namespace Bitar

namespace Zones

/-! ## `Recycle` on any list of addresses -/

/-- The taken memzones that begin at one of the addresses. -/
def listed (zones : Zones) (addrs : List Addr) : Finset Nat :=
  zones.device.occupiedMemzones.filter fun z => memzoneAddr z ∈ addrs

/-- The memzones `pushed` are put back, the last one of the list first. -/
def pushed (zones : Zones) (zs : List Nat) : Zones :=
  { zones with device := { zones.device with
    memzonePool := zs ++ zones.device.memzonePool
    occupiedMemzones := zones.device.occupiedMemzones \ zs.toFinset } }

/-- The tracker knows every taken memzone. -/
def Tracked (zones : Zones) : Prop :=
  ∀ z ∈ zones.device.occupiedMemzones, z ∈ zones.pool.allocated

section Recycle

variable {zones : Zones} {addrs : List Addr}

theorem mem_listed {z : Nat} :
    z ∈ zones.listed addrs ↔ z ∈ zones.device.occupiedMemzones ∧ memzoneAddr z ∈ addrs :=
  Finset.mem_filter

theorem memzoneAddr_inj {z z' : Nat} : memzoneAddr z = memzoneAddr z' ↔ z = z' := by
  simp [memzoneAddr]

theorem Tracked.pushed (h : zones.Tracked) (zs : List Nat) : (zones.pushed zs).Tracked :=
  fun z hz => h z (Finset.mem_sdiff.mp hz).1

/-- **The loop of `Recycle`.**  Whatever has been counted before, the memzones
found at the addresses are counted and pushed, each once. -/
theorem recycle_loop :
    ∀ (addrs : List Addr) (n : Nat) (zones : Zones), zones.Tracked →
      ∃ zs : List Nat, zs.Nodup ∧ zs.toFinset = zones.listed addrs ∧
        addrs.foldl (fun acc addr => (acc.1 + (acc.2.put addr).1, (acc.2.put addr).2)) (n, zones) =
          (n + zs.length, zones.pushed zs)
  | [], n, zones, _ => ⟨[], .nil, by ext z; simp [mem_listed], by simp [pushed]⟩
  | addr :: addrs, n, zones, h => by
      rcases put_cases zones addr with ⟨z, rfl, ha, ho, he⟩ | ⟨hno, he⟩
      · have hfirst : zones.put (memzoneAddr z) = (1, zones.pushed [z]) := by
          rw [he]
          simp [pushed, Finset.sdiff_singleton_eq_erase]
        obtain ⟨zs, hnd, hlisted, hloop⟩ := recycle_loop addrs (n + 1) (zones.pushed [z])
          (h.pushed [z])
        have hmem : ∀ x, x ∈ zs ↔ (x ∈ zones.device.occupiedMemzones ∧ x ≠ z) ∧
            memzoneAddr x ∈ addrs := by
          intro x
          rw [← List.mem_toFinset, hlisted, mem_listed]
          simp [pushed]
        refine ⟨zs ++ [z], ?_, ?_, ?_⟩
        · refine List.nodup_append.mpr ⟨hnd, List.nodup_singleton z, fun x hx y hy hxy => ?_⟩
          exact ((hmem x).mp hx).1.2 (hxy.trans (List.mem_singleton.mp hy))
        · ext x
          rw [List.mem_toFinset, List.mem_append, hmem, List.mem_singleton, mem_listed,
            List.mem_cons, memzoneAddr_inj]
          by_cases hx : x = z
          · simp [hx, ho]
          · simp [hx]
        · rw [List.foldl_cons, hfirst, hloop]
          simp only [pushed, List.length_append, List.length_singleton, List.append_assoc,
            List.toFinset_append, Prod.mk.injEq]
          refine ⟨by omega, ?_⟩
          rw [sdiff_sdiff_left, Finset.sup_eq_union, Finset.union_comm]
      · obtain ⟨zs, hnd, hlisted, hloop⟩ := recycle_loop addrs n zones h
        refine ⟨zs, hnd, ?_, ?_⟩
        · rw [hlisted]
          ext x
          rw [mem_listed, mem_listed, List.mem_cons]
          refine and_congr_right fun hx => ⟨Or.inr, fun hor => hor.resolve_left fun hxa => ?_⟩
          exact hno x hxa.symm (h x hx) hx
        · rw [List.foldl_cons, he]
          exact hloop

/-- What `Recycle` should do: count the taken memzones at the addresses, put each
of them back once and nothing else, and find nothing the second time. -/
structure RecyclesExactly (zones : Zones) (addrs : List Addr) : Prop where
  moved : ∃ zs : List Nat, zs.Nodup ∧ zs.toFinset = zones.listed addrs ∧
    zones.recycle addrs = ((zones.listed addrs).card, zones.pushed zs)
  perm : ∀ addrs', addrs'.Perm addrs →
    (zones.recycle addrs').1 = (zones.recycle addrs).1 ∧
    (zones.recycle addrs').2.device.occupiedMemzones =
      (zones.recycle addrs).2.device.occupiedMemzones ∧
    (zones.recycle addrs').2.device.memzonePool.Perm (zones.recycle addrs).2.device.memzonePool
  again : (zones.recycle addrs).2.recycle addrs = (0, (zones.recycle addrs).2)

theorem recycle_eq (h : zones.Tracked) (addrs : List Addr) :
    ∃ zs : List Nat, zs.Nodup ∧ zs.toFinset = zones.listed addrs ∧
      zones.recycle addrs = ((zones.listed addrs).card, zones.pushed zs) := by
  obtain ⟨zs, hnd, hlisted, hloop⟩ := recycle_loop addrs.reverse 0 zones h
  have hreverse : zones.listed addrs.reverse = zones.listed addrs := by simp [listed]
  rw [hreverse] at hlisted
  refine ⟨zs, hnd, hlisted, ?_⟩
  rw [recycle, hloop, Nat.zero_add, ← hlisted, List.toFinset_card_of_nodup hnd]

theorem Tracked.recyclesExactly (h : zones.Tracked) (addrs : List Addr) :
    zones.RecyclesExactly addrs := by
  obtain ⟨zs, hnd, hlisted, he⟩ := recycle_eq h addrs
  refine ⟨⟨zs, hnd, hlisted, he⟩, fun addrs' hperm => ?_, ?_⟩
  · obtain ⟨zs', hnd', hlisted', he'⟩ := recycle_eq h addrs'
    have hsame : zones.listed addrs' = zones.listed addrs := by simp [listed, hperm.mem_iff]
    rw [he, he', hsame]
    refine ⟨rfl, by simp [Zones.pushed, hlisted, hlisted', hsame], List.Perm.append_right _ ?_⟩
    refine (List.perm_ext_iff_of_nodup hnd' hnd).mpr fun z => ?_
    rw [← List.mem_toFinset, ← List.mem_toFinset, hlisted, hlisted', hsame]
  · obtain ⟨zs', hnd', hlisted', he'⟩ := recycle_eq (h.pushed zs) addrs
    have hnone : (zones.pushed zs).listed addrs = ∅ := by
      rw [Finset.eq_empty_iff_forall_notMem]
      intro z hz
      rw [mem_listed] at hz
      have hout := Finset.mem_sdiff.mp hz.1
      exact hout.2 (hlisted ▸ mem_listed.mpr ⟨hout.1, hz.2⟩)
    rw [hnone] at hlisted' he'
    have hnil : zs' = [] := List.toFinset_eq_empty_iff zs' |>.mp hlisted'
    rw [he, he', hnil]
    simp [Zones.pushed]

end Recycle

end Zones

/-! ## What is in the tracker -/

namespace Tracker

variable {T A Z : Type} (addr : Z → A)

/-- The memzone that is freed and whose entry is not erased yet. -/
def erasing (s : Tracker T A Z) : Option Z :=
  s.mutex.bind fun t =>
    match s.pc t with
    | .freed a => s.entries a
    | _ => none

/-- The memzones that `Of` finds at their addresses. -/
def entered [DecidableEq Z] (s : Tracker T A Z) : Finset Z :=
  (s.live ∪ s.erasing.toFinset).filter fun z => s.of (addr z) = some z

variable {addr} {s : Tracker T A Z}

theorem Sound.mem_entered [DecidableEq Z] (h : s.Sound addr) {z : Z} :
    z ∈ s.entered addr ↔ s.of (addr z) = some z := by
  rw [entered, Finset.mem_filter, and_iff_right_iff_imp]
  intro hof
  rw [Finset.mem_union]
  rcases h.entries_live _ _ hof with hlive | ⟨t, hpc⟩
  · exact Or.inl hlive
  · have hmutex := h.holder t _ (Or.inr hpc)
    right
    rw [Option.mem_toFinset, erasing, hmutex, Option.bind_some, hpc]
    exact hof

theorem Sound.of_returned (h : s.Sound addr) (hlost : ¬ s.Lost addr) {z : Z}
    (hz : z ∈ s.returned) : s.of (addr z) = some z :=
  h.entry_of_not_lost hlost (h.returned_live z hz) (h.returned_pc z hz)

end Tracker

/-! ## All device memories over one pool -/

/-- The tracker of the `Rtememzone` pool, with all device memories. -/
structure SharedPool where
  tracker : Tracker Nat Addr Nat
  memories : Nat → Option DeviceMemory
  /-- The memzones whose allocation has returned and that no device memory has. -/
  buffers : Finset Nat
  /-- What `Put` has got from `Of`, for every thread. -/
  found : Nat → Option Nat

/-- One atomic step on the pool or on a device memory. -/
inductive PoolEvent
  /-- A step of `AllocateAligned` or of `Release`. -/
  | call (action : Tracker.Action Nat Nat)
  | construct (memory self : Nat)
  /-- `AllocateOne` ends, in `Take` or else in `Preallocate`. -/
  | obtain (memory memzone : Nat) (taken : Bool)
  /-- `Preallocate` ends. -/
  | preallocated (memory : Nat)
  /-- `Take`, from the stack. -/
  | take (memory : Nat)
  /-- `Put` calls `Of`, before it takes the mutex. -/
  | lookUp (thread : Nat) (addr : Addr)
  /-- The rest of `Put`. -/
  | put (thread memory : Nat)
  /-- The destructor; what the device memory has had is to be released. -/
  | destroy (memory : Nat)

namespace DeviceMemory

/-- `Take` pops the top of the stack. -/
def pop (device : DeviceMemory) : DeviceMemory :=
  match device.memzonePool with
  | [] => device
  | z :: rest =>
      { device with
        memzonePool := rest
        occupiedMemzones := insert z device.occupiedMemzones }

/-- What `Take` or `Preallocate` does with a new memzone. -/
def receive (device : DeviceMemory) (z : Nat) (taken : Bool) : DeviceMemory :=
  if taken then { device with occupiedMemzones := insert z device.occupiedMemzones }
  else { device with memzonePool := z :: device.memzonePool }

/-- `Put` with the memzone that `Of` has found. -/
def giveBack (device : DeviceMemory) (z : Nat) : DeviceMemory :=
  if z ∈ device.occupiedMemzones then
    { device with
      memzonePool := z :: device.memzonePool
      occupiedMemzones := device.occupiedMemzones.erase z }
  else device

/-- The memzone is free or taken in this device memory. -/
def Holds (device : DeviceMemory) (z : Nat) : Prop :=
  z ∈ device.memzonePool ∨ z ∈ device.occupiedMemzones

variable {device : DeviceMemory} {z y : Nat} {taken : Bool}

theorem holds_pop : device.pop.Holds y ↔ device.Holds y := by
  unfold pop Holds
  cases hp : device.memzonePool with
  | nil => simp [hp]
  | cons top rest =>
      simp only [Finset.mem_insert, List.mem_cons]
      tauto

theorem holds_receive : (device.receive z taken).Holds y ↔ y = z ∨ device.Holds y := by
  unfold receive Holds
  cases taken <;> simp <;> tauto

theorem holds_giveBack : (device.giveBack z).Holds y ↔ device.Holds y := by
  unfold giveBack Holds
  split_ifs with hz
  · by_cases hy : y = z
    · simp [hy, hz]
    · simp [hy]
  · rfl

end DeviceMemory

namespace SharedPool

/-- The pool with nothing in it. -/
def empty : SharedPool := ⟨{}, fun _ => none, ∅, fun _ => none⟩

/-- Only what no device memory has is released. -/
def Releasable (s : SharedPool) : Tracker.Action Nat Nat → Prop
  | .find _ z => z ∈ s.buffers
  | _ => True

instance (s : SharedPool) : ∀ action, Decidable (s.Releasable action)
  | .find _ z => inferInstanceAs (Decidable (z ∈ s.buffers))
  | .reserve _ _ | .emplace _ | .free _ | .erase _ => inferInstanceAs (Decidable True)

def onMemory (s : SharedPool) (memory : Nat) (f : DeviceMemory → DeviceMemory) : SharedPool :=
  { s with memories := Function.update s.memories memory ((s.memories memory).map f) }

def act (s : SharedPool) : PoolEvent → SharedPool
  | .call action =>
      if s.Releasable action then
        let tracker := s.tracker.step memzoneAddr action
        { s with
          tracker := tracker
          buffers := (s.buffers ∪ tracker.returned \ s.tracker.returned) ∩ tracker.returned }
      else s
  | .construct memory self =>
      match s.memories memory with
      | none => { s with memories := Function.update s.memories memory (some (.new self)) }
      | some _ => s
  | .obtain memory memzone taken =>
      match s.memories memory, s.tracker.of (memzoneAddr memzone) with
      | some _, some z =>
          if z ∈ s.buffers then
            { s.onMemory memory (fun device => device.receive z taken) with
              buffers := s.buffers.erase z }
          else s
      -- after an overlap `Of` can find nothing, and there is no memzone to store
      | _, _ => s
  | .preallocated memory =>
      s.onMemory memory fun device =>
        { device with numPreallocatedMemzones := toUInt16 device.memzonePool.length }
  | .take memory => s.onMemory memory DeviceMemory.pop
  | .lookUp thread addr => { s with found := Function.update s.found thread (s.tracker.of addr) }
  | .put thread memory =>
      match s.found thread with
      | none => s
      | some z =>
          { s.onMemory memory (fun device => device.giveBack z) with
            found := Function.update s.found thread none }
  | .destroy memory =>
      match s.memories memory with
      | none => s
      | some device =>
          { s with
            memories := Function.update s.memories memory none
            buffers := s.buffers ∪ (device.memzonePool.toFinset ∪ device.occupiedMemzones) }

/-- An entry is made for an address between `rte_memzone_free` and the erasure. -/
def Overlaps (s : SharedPool) : PoolEvent → Prop
  | .call action => s.tracker.Overlaps memzoneAddr action
  | _ => False

/-- What belongs to a device memory, or to nobody of them. -/
def Holds (s : SharedPool) : Option Nat → Nat → Prop
  | none, z => z ∈ s.buffers
  | some memory, z => ∃ device, s.memories memory = some device ∧ device.Holds z

/-- Nobody holds what another one holds, and the tracker finds all of it. -/
structure Separate (owner : Nat → Option Nat) (s : SharedPool) : Prop where
  sound : s.tracker.Sound memzoneAddr
  found : ¬ s.tracker.Lost memzoneAddr
  owned : ∀ o z, s.Holds o z → owner z = o
  returned : ∀ o z, s.Holds o z → z ∈ s.tracker.returned

section Act

variable {s : SharedPool} {owner : Nat → Option Nat} {memory : Nat}

theorem holds_update {memories : Nat → Option DeviceMemory} {m z : Nat} {new : Option DeviceMemory}
    {device : DeviceMemory} (h : Function.update memories memory new m = some device)
    (hz : device.Holds z) :
    m = memory ∧ new = some device ∨
      m ≠ memory ∧ ∃ device, memories m = some device ∧ device.Holds z := by
  by_cases hm : m = memory
  · subst hm
    exact Or.inl ⟨rfl, (Function.update_self m new memories).symm.trans h⟩
  · rw [Function.update_of_ne hm] at h
    exact Or.inr ⟨hm, device, h, hz⟩

/-- Work on a device memory that leaves the set of its memzones as it is. -/
theorem Separate.onMemory (h : s.Separate owner) (memory : Nat) {f : DeviceMemory → DeviceMemory}
    (hf : ∀ device z, (f device).Holds z → device.Holds z) :
    (s.onMemory memory f).Separate owner := by
  have hholds : ∀ o z, (s.onMemory memory f).Holds o z → s.Holds o z := by
    rintro (_ | m) z hz
    · exact hz
    · obtain ⟨device, hdevice, hz⟩ := hz
      rcases holds_update hdevice hz with ⟨rfl, hnew⟩ | ⟨-, hother⟩
      · obtain ⟨before, hbefore, rfl⟩ := Option.map_eq_some_iff.mp hnew
        exact ⟨before, hbefore, hf before z hz⟩
      · exact hother
  exact ⟨h.sound, h.found, fun o z hz => h.owned o z (hholds o z hz),
    fun o z hz => h.returned o z (hholds o z hz)⟩

/-- Only the beginning of a release takes a memzone out of `returned`. -/
theorem mem_returned_step {tracker : Tracker Nat Addr Nat} {action : Tracker.Action Nat Nat}
    {z : Nat} (hz : z ∈ tracker.returned) (hne : ∀ t, action ≠ .find t z) :
    z ∈ (tracker.step memzoneAddr action).returned := by
  have hs := tracker.step_moves memzoneAddr action
  revert hs
  generalize tracker.step memzoneAddr action = after
  intro hs
  cases hs with
  | stays _ _ => exact hz
  | reserves hpc hfresh => exact hz
  | emplaces hpc => exact Finset.mem_insert_of_mem hz
  | @misses t y hy hnone => exact Finset.mem_erase.mpr ⟨fun e => hne t (by rw [e]), hz⟩
  | @finds t y hpc hmutex hy hsome => exact Finset.mem_erase.mpr ⟨fun e => hne t (by rw [e]), hz⟩
  | frees hpc => exact hz
  | erases hpc => exact hz

theorem Separate.call (h : s.Separate owner) {action : Tracker.Action Nat Nat}
    (hover : ¬ s.tracker.Overlaps memzoneAddr action) (hrel : s.Releasable action) :
    ∃ owner', (s.act (.call action)).Separate owner' := by
  have hs := s.tracker.step_moves memzoneAddr action
  have hact : s.act (.call action) = { s with
      tracker := s.tracker.step memzoneAddr action
      buffers := (s.buffers ∪ (s.tracker.step memzoneAddr action).returned \ s.tracker.returned) ∩
        (s.tracker.step memzoneAddr action).returned } := if_pos hrel
  rw [hact]
  refine ⟨fun z => if z ∈ s.tracker.returned then owner z else none, h.sound.moves hs, ?_, ?_, ?_⟩
  · exact fun hlost => ((h.sound.lost_moves hs).mp hlost).elim h.found hover
  · rintro (_ | m) z hz
    · obtain ⟨hz, -⟩ := Finset.mem_inter.mp hz
      rcases Finset.mem_union.mp hz with hz | hz
      · rw [if_pos (h.returned none z hz), h.owned none z hz]
      · exact if_neg (Finset.mem_sdiff.mp hz).2
    · rw [if_pos (h.returned (some m) z hz), h.owned (some m) z hz]
  · rintro (_ | m) z hz
    · exact (Finset.mem_inter.mp hz).2
    · refine mem_returned_step (h.returned (some m) z hz) fun t he => ?_
      -- a device memory has no buffer
      subst he
      have hnone := h.owned none z hrel
      rw [h.owned (some m) z hz] at hnone
      simp at hnone

theorem Separate.obtain (h : s.Separate owner) {z : Nat} (hz : z ∈ s.buffers) (taken : Bool) :
    Separate (Function.update owner z (some memory))
      { s.onMemory memory (fun device => device.receive z taken) with
        buffers := s.buffers.erase z } := by
  have howner := h.owned none z hz
  refine ⟨h.sound, h.found, ?_, ?_⟩
  · rintro (_ | m) y hy
    · obtain ⟨hne, hy⟩ := Finset.mem_erase.mp hy
      rw [Function.update_of_ne hne, h.owned none y hy]
    · obtain ⟨device, hdevice, hy⟩ := hy
      by_cases hyz : y = z
      · subst hyz
        rcases holds_update hdevice hy with ⟨rfl, -⟩ | ⟨-, hother⟩
        · exact Function.update_self ..
        · rw [h.owned (some m) y hother] at howner
          simp at howner
      · rw [Function.update_of_ne hyz]
        rcases holds_update hdevice hy with ⟨rfl, hnew⟩ | ⟨-, hother⟩
        · obtain ⟨before, hbefore, rfl⟩ := Option.map_eq_some_iff.mp hnew
          exact h.owned _ y ⟨before, hbefore, (DeviceMemory.holds_receive.mp hy).resolve_left hyz⟩
        · exact h.owned _ y hother
  · rintro (_ | m) y hy
    · exact h.returned none y (Finset.mem_of_mem_erase hy)
    · obtain ⟨device, hdevice, hy⟩ := hy
      rcases holds_update hdevice hy with ⟨rfl, hnew⟩ | ⟨-, hother⟩
      · obtain ⟨before, hbefore, rfl⟩ := Option.map_eq_some_iff.mp hnew
        rcases DeviceMemory.holds_receive.mp hy with rfl | hy
        · exact h.returned none y hz
        · exact h.returned (some m) y ⟨before, hbefore, hy⟩
      · exact h.returned (some m) y hother

/-- What the device memory had belongs to nobody now. -/
theorem Separate.destroy (h : s.Separate owner) {device : DeviceMemory}
    (hmemory : s.memories memory = some device) :
    Separate (fun z => if owner z = some memory then none else owner z) { s with
      memories := Function.update s.memories memory none
      buffers := s.buffers ∪ (device.memzonePool.toFinset ∪ device.occupiedMemzones) } := by
  have hheld : ∀ z ∈ s.buffers ∪ (device.memzonePool.toFinset ∪ device.occupiedMemzones),
      s.Holds none z ∨ s.Holds (some memory) z := by
    intro z hz
    simp only [Finset.mem_union, List.mem_toFinset] at hz
    exact hz.imp_right fun hz => ⟨device, hmemory, hz⟩
  refine ⟨h.sound, h.found, ?_, ?_⟩
  · rintro (_ | m) z hz
    · rcases hheld z hz with hz | hz
      · simp [h.owned none z hz]
      · exact if_pos (h.owned _ z hz)
    · obtain ⟨other, hother, hz⟩ := hz
      rcases holds_update hother hz with ⟨-, hnew⟩ | ⟨hne, hz⟩
      · simp at hnew
      · have howner := h.owned (some m) z hz
        rw [if_neg fun e => hne (Option.some.inj (howner.symm.trans e)), howner]
  · rintro (_ | m) z hz
    · exact (hheld z hz).elim (h.returned none z) (h.returned (some memory) z)
    · obtain ⟨other, hother, hz⟩ := hz
      rcases holds_update hother hz with ⟨-, hnew⟩ | ⟨-, hz⟩
      · simp at hnew
      · exact h.returned (some m) z hz

/-- **Step lemma.** -/
theorem Separate.act (h : s.Separate owner) {event : PoolEvent} (hover : ¬ s.Overlaps event) :
    ∃ owner', (s.act event).Separate owner' := by
  cases event with
  | call action =>
      by_cases hrel : s.Releasable action
      · exact h.call hover hrel
      · rw [show s.act (.call action) = s from if_neg hrel]
        exact ⟨owner, h⟩
  | construct memory self =>
      simp only [SharedPool.act]
      split
      · next hnone =>
          have hholds : ∀ o z, SharedPool.Holds { s with
              memories := Function.update s.memories memory (some (.new self)) } o z →
              s.Holds o z := by
            rintro (_ | m) z hz
            · exact hz
            · obtain ⟨device, hdevice, hz⟩ := hz
              rcases holds_update hdevice hz with ⟨rfl, hnew⟩ | ⟨-, hother⟩
              · obtain rfl := Option.some.inj hnew
                simp [DeviceMemory.Holds, DeviceMemory.new] at hz
              · exact hother
          exact ⟨owner, h.sound, h.found, fun o z hz => h.owned o z (hholds o z hz),
            fun o z hz => h.returned o z (hholds o z hz)⟩
      · exact ⟨owner, h⟩
  | obtain memory memzone taken =>
      simp only [SharedPool.act]
      split
      · split_ifs with hz
        · exact ⟨_, h.obtain hz taken⟩
        · exact ⟨owner, h⟩
      · exact ⟨owner, h⟩
  | preallocated memory => exact ⟨owner, h.onMemory memory fun _ _ hz => hz⟩
  | take memory => exact ⟨owner, h.onMemory memory fun _ _ hz => DeviceMemory.holds_pop.mp hz⟩
  | lookUp thread addr => exact ⟨owner, h.sound, h.found, h.owned, h.returned⟩
  | put thread memory =>
      simp only [SharedPool.act]
      split
      · exact ⟨owner, h⟩
      · next z _ =>
          have hput := h.onMemory memory fun device _ hz =>
            (@DeviceMemory.holds_giveBack device z _).mp hz
          exact ⟨owner, hput.sound, hput.found, hput.owned, hput.returned⟩
  | destroy memory =>
      simp only [SharedPool.act]
      split
      · exact ⟨owner, h⟩
      · next device hmemory => exact ⟨_, h.destroy hmemory⟩

theorem separate_empty : empty.Separate fun _ => none := by
  refine ⟨Tracker.sound_empty memzoneAddr, ?_, ?_, ?_⟩
  · simp [empty, Tracker.Lost, Tracker.Missed]
  all_goals rintro (_ | m) z hz <;> simp [empty, Holds] at hz

/-- **Run lemma.** -/
theorem run_separate {events : List PoolEvent}
    (h : Runs.Along act (fun s event => ¬ s.Overlaps event) .empty events) :
    ∃ owner, (Runs.run act .empty events).Separate owner :=
  Runs.Along.invariant (I := fun s => ∃ owner, s.Separate owner)
    (fun _ _ ⟨_, hs⟩ hover => hs.act hover) ⟨_, separate_empty⟩ h

end Act

/-! ## What a device memory sees -/

/-- The memzones of a device memory, with a pool in which `Of` finds what the
tracker finds. -/
structure Sees (s : SharedPool) (memory : Nat) (zones : Zones) : Prop where
  device_eq : s.memories memory = some zones.device
  of_eq : ∀ addr, zones.pool.of addr = s.tracker.of addr

section Sees

variable {s : SharedPool} {owner : Nat → Option Nat} {memory : Nat} {zones : Zones}

theorem of_memzoneAddr (pool : MemzonePool) (z : Nat) :
    pool.of (memzoneAddr z) = some z ↔ z ∈ pool.allocated := by
  simp [MemzonePool.of, memzoneAddr]

theorem of_eq_some {pool : MemzonePool} {addr : Addr} {z : Nat} :
    pool.of addr = some z ↔ z ∈ pool.allocated ∧ memzoneAddr z = addr := by
  constructor
  · intro hof
    obtain ⟨block, offset⟩ := addr
    cases block with
    | host id => simp [MemzonePool.of] at hof
    | memzone id =>
        simp only [MemzonePool.of] at hof
        split_ifs at hof with hid
        obtain rfl := Option.some.inj hof
        exact ⟨hid.2, by rw [memzoneAddr, hid.1]⟩
  · rintro ⟨hz, rfl⟩
    exact (of_memzoneAddr pool z).mpr hz

/-- There is such a pool. -/
theorem Separate.sees (h : s.Separate owner) {device : DeviceMemory}
    (hdevice : s.memories memory = some device) (size : Nat → Nat) (bytesAllocated : Int) :
    s.Sees memory ⟨device, s.tracker.entered memzoneAddr, size, bytesAllocated⟩ := by
  refine ⟨hdevice, fun addr => Option.ext fun z => ?_⟩
  rw [of_eq_some]
  constructor
  · rintro ⟨hz, rfl⟩
    exact h.sound.mem_entered.mp hz
  · intro hof
    have haddr := h.sound.entries_addr addr z hof
    subst haddr
    exact ⟨h.sound.mem_entered.mpr hof, rfl⟩

/-- The two steps of `Put` do what `Put` does at once. -/
theorem Sees.put (h : s.Sees memory zones) (thread : Nat) (addr : Addr) :
    ((s.act (.lookUp thread addr)).act (.put thread memory)).Sees memory (zones.put addr).2 := by
  have hof := h.of_eq addr
  unfold Zones.put
  simp only [act, Function.update_self, ← hof]
  cases zones.pool.of addr with
  | none => exact ⟨h.device_eq, h.of_eq⟩
  | some z =>
      refine ⟨?_, ?_⟩
      · simp only [SharedPool.onMemory, h.device_eq, Option.map_some, Function.update_self,
          DeviceMemory.giveBack]
        split_ifs <;> rfl
      · dsimp only
        split_ifs <;> exact h.of_eq

/-- `Take` from the stack. -/
theorem Sees.pop (h : s.Sees memory zones) (hne : zones.device.memzonePool ≠ []) (size : Nat)
    (answer : Option Nat) :
    (s.act (.take memory)).Sees memory (zones.take size answer).2 := by
  obtain ⟨z, rest, hp⟩ := List.exists_cons_of_ne_nil hne
  have hact : (s.act (.take memory)).memories memory = some zones.device.pop := by
    simp [act, SharedPool.onMemory, h.device_eq]
  unfold Zones.take
  rw [hp]
  refine ⟨?_, h.of_eq⟩
  rw [hact, DeviceMemory.pop, hp]

/-- A memzone has been reserved and entered. -/
theorem act_reserve_emplace {thread z : Nat} (hidle : s.tracker.pc thread = .idle)
    (hlive : z ∉ s.tracker.live) (hentry : s.tracker.of (memzoneAddr z) = none)
    (hreturned : z ∉ s.tracker.returned) :
    let after := (s.act (.call (.reserve thread z))).act (.call (.emplace thread))
    after.memories = s.memories ∧ z ∈ after.buffers ∧
      after.tracker.entries = Function.update s.tracker.entries (memzoneAddr z) (some z) := by
  have hfresh : ∀ y ∈ s.tracker.live, memzoneAddr y ≠ memzoneAddr z :=
    fun y hy he => hlive (Zones.memzoneAddr_inj.mp he ▸ hy)
  have hentries : s.tracker.entries (memzoneAddr z) = none := hentry
  simp only [act, Releasable, Tracker.step, if_pos (And.intro hidle hfresh), if_true,
    Function.update_self, hentries]
  simp [hreturned]

/-- The steps of a `Take` that reserves a memzone do what `Take` does at once. -/
theorem Sees.reserve (h : s.Sees memory zones) (hsound : s.tracker.Sound memzoneAddr)
    {thread z : Nat} (hidle : s.tracker.pc thread = .idle) (hlive : z ∉ s.tracker.live)
    (hempty : zones.device.memzonePool = []) (hfresh : z ∉ zones.pool.allocated) (size : Nat) :
    (((s.act (.call (.reserve thread z))).act (.call (.emplace thread))).act
      (.obtain memory z true)).Sees memory (zones.take size (some z)).2 := by
  have hentry : s.tracker.of (memzoneAddr z) = none := by
    rw [← h.of_eq]
    simp [MemzonePool.of, memzoneAddr, hfresh]
  obtain ⟨hmemories, hbuffer, hentries⟩ := act_reserve_emplace hidle hlive hentry
    fun hz => hlive (hsound.returned_live z hz)
  have htake : (zones.take size (some z)).2 =
      { device := zones.device.receive z true
        pool := { allocated := insert z zones.pool.allocated
                  size := Function.update zones.pool.size z size
                  bytesAllocated := zones.pool.bytesAllocated + size } } := by
    simp [Zones.take, hempty, MemzonePool.allocateOne, hfresh, DeviceMemory.receive]
  have hof : ∀ addr, ((s.act (.call (.reserve thread z))).act (.call (.emplace thread))).tracker.of
      addr = Function.update s.tracker.entries (memzoneAddr z) (some z) addr :=
    congrFun hentries
  have hfound : ((s.act (.call (.reserve thread z))).act (.call (.emplace thread))).tracker.of
      (memzoneAddr z) = some z := (hof _).trans (Function.update_self ..)
  revert hmemories hbuffer hfound hof
  generalize (s.act (.call (.reserve thread z))).act (.call (.emplace thread)) = after
  intro hmemories hbuffer hof hfound
  have hact : after.act (.obtain memory z true) =
      { after.onMemory memory (fun device => device.receive z true) with
        buffers := after.buffers.erase z } := by
    simp [act, hmemories, h.device_eq, hfound, hbuffer]
  rw [hact, htake]
  refine ⟨?_, fun addr => ?_⟩
  · simp [SharedPool.onMemory, hmemories, h.device_eq]
  · change _ = after.tracker.of addr
    rw [hof addr]
    by_cases haddr : addr = memzoneAddr z
    · subst haddr
      rw [Function.update_self, of_memzoneAddr]
      exact Finset.mem_insert_self ..
    · rw [Function.update_of_ne haddr]
      refine Eq.trans ?_ (h.of_eq addr)
      obtain ⟨block, offset⟩ := addr
      cases block with
      | host id => rfl
      | memzone id =>
          have hne : ¬ (offset = 0 ∧ id = z) := fun hboth => haddr (by rw [hboth.1, hboth.2]; rfl)
          simp only [MemzonePool.of, Finset.mem_insert]
          congr 1
          simp only [eq_iff_iff]
          tauto

/-- **`Recycle` on one of them.** -/
theorem Separate.recyclesExactly (h : s.Separate owner) (hsees : s.Sees memory zones)
    (addrs : List Addr) : zones.RecyclesExactly addrs := by
  refine Zones.Tracked.recyclesExactly (fun z hz => ?_) addrs
  rw [← of_memzoneAddr, hsees.of_eq]
  exact h.sound.of_returned h.found (h.returned (some memory) z ⟨_, hsees.device_eq, Or.inr hz⟩)

end Sees

end SharedPool

end Bitar
