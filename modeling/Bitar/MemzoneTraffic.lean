import Bitar.Bookkeeping
import Bitar.MemzoneOwnership

/-!
# What a call does to the memzones

A step of `Compress` or `Decompress` touches the memzones of the device only
through `Take` and `Put`.  This needs nothing of the configuration in force, nor
of the state of the queue pair.

**Results.**
* `assembleFrom_takes`: `AssembleFrom` only takes.
* `step_traffic`: a step takes and puts, with the segment size in force.
-/

namespace Bitar

namespace Zones

/-- `later` is reached from `zones` by calls of `Take` and `Put`. -/
def Traffic (size : Nat) (zones later : Zones) : Prop :=
  ∃ ops : List MemOp, later = Runs.run (memStep size) zones ops

section Traffic

variable {size : Nat} {zones zones' later : Zones}

theorem Traffic.refl (size : Nat) (zones : Zones) : Traffic size zones zones :=
  ⟨[], rfl⟩

theorem Traffic.trans (h : Traffic size zones zones') (h' : Traffic size zones' later) :
    Traffic size zones later := by
  obtain ⟨ops, rfl⟩ := h
  obtain ⟨ops', rfl⟩ := h'
  exact ⟨ops ++ ops', (Runs.run_append zones ops ops').symm⟩

theorem Traffic.putAll (size : Nat) (zones : Zones) (addrs : List Addr) :
    Traffic size zones (zones.putAll addrs) := by
  induction addrs generalizing zones with
  | nil => exact .refl size zones
  | cons addr addrs ih => exact Traffic.trans ⟨[.put addr], rfl⟩ (ih (zones.put addr).2)

/-- `Recycle` puts, and counts. -/
theorem recycle_traffic (size : Nat) (zones : Zones) (addrs : List Addr) :
    Traffic size zones (zones.recycle addrs).2 := by
  suffices key : ∀ (addrs : List Addr) (n : Nat) (zones : Zones),
      (addrs.foldl (fun acc addr => (acc.1 + (acc.2.put addr).1, (acc.2.put addr).2))
        (n, zones)).2 = zones.putAll addrs by
    unfold recycle
    rw [key]
    exact Traffic.putAll size zones addrs.reverse
  intro addrs
  induction addrs with
  | nil => exact fun _ _ => rfl
  | cons addr addrs ih => exact fun n zones => ih _ _

end Traffic

end Zones

/-! ## The destination loop only takes -/

theorem next_zones (size : Nat) (cursor : ZoneCursor) :
    (ZoneCursor.next size cursor).2.zones =
      (cursor.zones.take size cursor.answers.head?.join).2 := by
  unfold ZoneCursor.next
  split <;> next heq => rw [heq]

theorem appendDestinations_takes (maxSglSegs n size : Nat) (shinfo : SharedInfo) (xform : Xform) :
    ∀ (mbufs : List Nat) (mbufId : Nat) (st : Assembly ZoneCursor), ∃ answers : List (Option Nat),
      (appendDestinations maxSglSegs n
          (ZoneCursor.next size) shinfo xform mbufs mbufId st).1.cursor.zones =
        Runs.run (Zones.memStep size) st.cursor.zones (answers.map .take)
  | [], _, _ => ⟨[], rfl⟩
  | mbuf :: rest, mbufId, st => by
      have hzones := next_zones size st.cursor
      unfold appendDestinations
      dsimp only
      split
      · next cursor hnext =>
          rw [hnext] at hzones
          exact ⟨[st.cursor.answers.head?.join], hzones⟩
      · next seg cursor hnext =>
          rw [hnext] at hzones
          have hrest : ∀ (mbufId : Nat) (qp : QueuePairMemory) (index : Nat),
              ∃ answers : List (Option Nat),
                (appendDestinations maxSglSegs n (ZoneCursor.next size) shinfo xform rest mbufId
                  ⟨qp, index, cursor⟩).1.cursor.zones =
                Runs.run (Zones.memStep size) st.cursor.zones (answers.map .take) := by
            intro mbufId qp index
            obtain ⟨answers, h⟩ := appendDestinations_takes maxSglSegs n size shinfo xform rest
              mbufId ⟨qp, index, cursor⟩
            refine ⟨st.cursor.answers.head?.join :: answers, ?_⟩
            rw [List.map_cons, Runs.run_cons, Zones.memStep, ← hzones]
            exact h
          split_ifs
          · exact hrest _ _ _
          · exact hrest _ _ _
          · exact ⟨[st.cursor.answers.head?.join], hzones⟩

theorem assembleBurst_takes (maxSglSegs n numOps size : Nat) {burst : BurstSource Nat ZoneCursor}
    (hnext : burst.nextDestination = ZoneCursor.next size) (answer : BulkAnswer)
    (qp : QueuePairMemory) (source : Nat) (destination : ZoneCursor) :
    ∃ answers : List (Option Nat),
      (assembleBurst maxSglSegs n numOps burst answer qp source destination).destination.zones =
        Runs.run (Zones.memStep size) destination.zones (answers.map .take) := by
  unfold assembleBurst
  rw [hnext]
  split
  · next qp' _ =>
      dsimp only
      split
      · next st' _ =>
          obtain ⟨answers, h⟩ := appendDestinations_takes maxSglSegs n size burst.destinationInfo
            burst.xform (qp'.mbufs.drop n) 0 ⟨st'.qp, qp'.numOpsAssembled, destination⟩
          refine ⟨answers, ?_⟩
          rw [← h]
          split <;> next heq => rw [heq]
      · exact ⟨[], rfl⟩
  · exact ⟨[], rfl⟩

namespace Machine

variable {st : Machine}

/-- `AssembleFrom` only takes. -/
theorem assembleFrom_takes (st : Machine) (env : Env) :
    ∃ answers : List (Option Nat), (st.assembleFrom env).1.zones =
      Runs.run (Zones.memStep st.cfg.compressedSegSize) st.zones (answers.map .take) := by
  unfold assembleFrom
  cases st.call with
  | decompress buffers output index offset size => exact ⟨[], rfl⟩
  | compress input offset out =>
      dsimp only
      unfold assembleFromDecompressed
      dsimp only
      split_ifs
      · exact ⟨[], rfl⟩
      · exact assembleBurst_takes _ _ _ _ rfl _ _ _ _

/-! ## The other steps -/

section Unchanged

@[simp] theorem enqueueBurst_zones (st : Machine) (env : Env) (n : Nat) :
    (st.enqueueBurst env n).1.zones = st.zones := by
  unfold enqueueBurst
  dsimp only
  split_ifs <;> rfl

theorem foldl_complete_zones (ps : List (Nat × OpResult)) (st : Machine) :
    (ps.foldl (fun st p => st.complete p.1 p.2) st).zones = st.zones := by
  induction ps generalizing st with
  | nil => rfl
  | cons p ps ih => exact ih (st.complete p.1 p.2)

@[simp] theorem handBack_zones (st : Machine) (env : Env) : (st.handBack env).zones = st.zones :=
  foldl_complete_zones _ st

theorem processBurst_zones (debug : Bool) :
    ∀ (os : List Nat) (st : Machine), (processBurst debug os st).1.zones = st.zones
  | [], _ => rfl
  | o :: os, st => by
      unfold processBurst
      split_ifs
      · rfl
      · dsimp only
        split
        · exact processBurst_zones debug os _
        · rfl

@[simp] theorem dequeueBurst_zones (debug : Bool) (st : Machine) (env : Env) :
    (dequeueBurst debug st env).1.zones = st.zones := by
  unfold dequeueBurst
  dsimp only
  split_ifs
  · exact handBack_zones st env
  · rw [processBurst_zones]
    exact handBack_zones st env

end Unchanged

/-- `Release` only puts. -/
theorem release_traffic (size : Nat) (qp : QueuePairMemory) (zones : Zones) :
    Zones.Traffic size zones (qp.release zones).2 := by
  suffices key : ∀ (os : List Nat) (st : QueuePairMemory × Zones),
      Zones.Traffic size st.2 (os.foldl (fun st op => st.1.releaseOp st.2 op) st).2 from
    key qp.pendingOperations (qp, zones)
  intro os
  induction os with
  | nil => exact fun st => .refl size st.2
  | cons o os ih => exact fun st => (Zones.Traffic.putAll size st.2 _).trans (ih _)

theorem fail_traffic (size : Nat) (st : Machine) (code : StatusCode) (message : String) :
    Zones.Traffic size st.zones (st.fail code message).zones := by
  unfold fail
  cases st.call with
  | compress input offset out =>
      exact (Zones.Traffic.putAll size st.zones _).trans (release_traffic size _ _)
  | decompress buffers output index offset n => exact .refl size st.zones

/-- **Step lemma.** -/
theorem step_traffic (debug : Bool) (st : Machine) (env : Env) :
    Zones.Traffic st.cfg.compressedSegSize st.zones (step debug st env).zones := by
  have hdequeue := dequeueBurst_zones debug st env
  unfold step
  cases st.pc with
  | assemble =>
      obtain ⟨answers, htakes⟩ := assembleFrom_takes st env
      have hassemble : Zones.Traffic st.cfg.compressedSegSize st.zones
          (st.assembleFrom env).1.zones :=
        ⟨answers.map .take, htakes⟩
      refine hassemble.trans ?_
      dsimp only [assembleStep]
      generalize st.assembleFrom env = r
      obtain ⟨st', result⟩ := r
      cases result with
      | ok n =>
          dsimp only
          split_ifs
          · exact .refl _ _
          · rw [zones_drainOrFinish]
            exact .refl _ _
      | error code => exact fail_traffic _ st' code _
  | enqueue n =>
      have henqueue := enqueueBurst_zones st env (toUInt16 n)
      dsimp only [enqueueStep]
      rw [← henqueue]
      generalize st.enqueueBurst env (toUInt16 n) = r
      obtain ⟨st', code⟩ := r
      cases code with
      | ok => exact .refl _ _
      | _ => exact fail_traffic _ st' _ _
  | dequeue =>
      dsimp only [dequeueStep]
      rw [← hdequeue]
      generalize dequeueBurst debug st env = r
      obtain ⟨st', code⟩ := r
      cases code with
      | ok => exact .refl _ _
      | _ => exact fail_traffic _ st' _ _
  | drain =>
      dsimp only [drainStep]
      rw [← hdequeue]
      generalize dequeueBurst debug st env = r
      obtain ⟨st', code⟩ := r
      cases code with
      | ok =>
          dsimp only
          rw [zones_drainOrFinish]
          exact .refl _ _
      | _ => exact fail_traffic _ st' _ _
  | returned status => exact .refl _ _

end Machine

end Bitar
