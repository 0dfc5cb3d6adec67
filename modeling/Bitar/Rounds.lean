import Bitar.Leaks
import Bitar.MemzoneTraffic

/-!
# Rounds of `Compress` and `Recycle`

`Compress` takes one memzone for every segment of its input, and hands out those
under the buffers it returns.  In a round the user gives them back at once.

**Results.**
* `Idle.round`: one round.
* `memzone_conservation`: exactly when rounds keep the set of taken memzones,
  and how many memzones the device then holds.
-/

namespace Bitar

open BlockStore Pieces

namespace Zones

/-! ## How many memzones are held -/

theorem held_take (zones : Zones) (size : Nat) (answer : Option Nat) :
    (zones.take size answer).2.held ≤
        max zones.held (zones.take size answer).2.device.occupiedMemzones.card ∧
      zones.device.occupiedMemzones.card ≤
        (zones.take size answer).2.device.occupiedMemzones.card := by
  rcases take_cases zones size answer with ⟨z, rest, hp, he⟩ | ⟨z, hp, -, he⟩ | ⟨-, he⟩
  · rw [he]
    have hle := Finset.card_insert_le z zones.device.occupiedMemzones
    have hsub := Finset.card_le_card (Finset.subset_insert z zones.device.occupiedMemzones)
    simp only [held, hp, List.length_cons]
    omega
  · rw [he]
    have hsub := Finset.card_le_card (Finset.subset_insert z zones.device.occupiedMemzones)
    simp only [held, hp, List.length_nil]
    omega
  · rw [he]
    exact ⟨Nat.le_max_left _ _, Nat.le_refl _⟩

/-- Memzones are reserved only when all those held are taken. -/
theorem held_takes (size : Nat) :
    ∀ (answers : List (Option Nat)) (zones : Zones),
      (Runs.run (memStep size) zones (answers.map .take)).held ≤ max zones.held
        (Runs.run (memStep size) zones (answers.map .take)).device.occupiedMemzones.card ∧
      zones.device.occupiedMemzones.card ≤
        (Runs.run (memStep size) zones (answers.map .take)).device.occupiedMemzones.card
  | [], zones => ⟨Nat.le_max_left _ _, Nat.le_refl _⟩
  | answer :: answers, zones => by
      have h := held_take zones size answer
      have ih := held_takes size answers (zones.take size answer).2
      rw [List.map_cons, Runs.run_cons]
      show _ ≤ max _ _ ∧ _
      simp only [memStep]
      omega

/-- `Recycle`, on the addresses of distinct memzones that are taken. -/
theorem recycle_memzones {zones : Zones} {zs : List Nat} (hnd : zs.Nodup)
    (h : ∀ z ∈ zs, z ∈ zones.pool.allocated ∧ z ∈ zones.device.occupiedMemzones) :
    zones.recycle (zs.map memzoneAddr) = (zs.length, { zones with device := { zones.device with
      memzonePool := zs ++ zones.device.memzonePool
      occupiedMemzones := zones.device.occupiedMemzones \ zs.toFinset } }) := by
  suffices key : ∀ (zs : List Nat) (n : Nat) (zones : Zones), zs.Nodup →
      (∀ z ∈ zs, z ∈ zones.pool.allocated ∧ z ∈ zones.device.occupiedMemzones) →
      (zs.map memzoneAddr).foldl
          (fun acc addr => (acc.1 + (acc.2.put addr).1, (acc.2.put addr).2)) (n, zones) =
        (n + zs.length, zones.putAll (zs.map memzoneAddr)) by
    have hrev := key zs.reverse 0 zones (List.nodup_reverse.mpr hnd) (by simpa using h)
    rw [recycle, ← List.map_reverse, hrev, putAll_memzones _ _ (List.nodup_reverse.mpr hnd)
      (by simpa using h), Nat.zero_add, List.length_reverse, List.reverse_reverse,
      List.toFinset_reverse]
  intro zs
  induction zs with
  | nil => exact fun _ _ _ _ => rfl
  | cons z zs ih =>
      intro n zones hnd h
      obtain ⟨hz, hnd⟩ := List.nodup_cons.mp hnd
      obtain ⟨ha, ho⟩ := h z (by simp)
      have hone : (zones.put (memzoneAddr z)).1 = 1 := by
        simp [put, MemzonePool.of, memzoneAddr, ha, ho]
      have hrest := ih (n + 1) (zones.put (memzoneAddr z)).2 hnd (by
        intro x hx
        rw [put_memzoneAddr ha ho]
        exact ⟨(h x (by simp [hx])).1, Finset.mem_erase.mpr
          ⟨fun e => hz (e ▸ hx), (h x (by simp [hx])).2⟩⟩)
      rw [List.map_cons, List.foldl_cons, hone, hrest, List.length_cons]
      simp only [putAll, List.foldl_cons, Prod.mk.injEq, and_true]
      omega

end Zones

namespace Machine

variable {st st' : Machine} {env : Env}

theorem assembleStep_zones (hpc : st.pc = .assemble) (hnf : st.NoFault env) (debug : Bool) :
    (step debug st env).zones = (st.assembleFrom env).1.zones := by
  unfold NoFault at hnf
  rw [hpc] at hnf
  dsimp only at hnf
  unfold step
  rw [hpc]
  unfold assembleStep
  cases hr : st.assembleFrom env with
  | mk s result =>
      rw [hr] at hnf
      cases result with
      | error code => simp [Except.isOk, Except.toBool] at hnf
      | ok n =>
          dsimp only
          split_ifs
          · rfl
          · exact zones_drainOrFinish s

/-! ## One round -/

/-- A call of `Compress` and what the environment answers in it. -/
structure Round where
  decompressedBuffer : Option Buffer
  envs : List Env

/-- The number of segments of the input. -/
def Round.numSegs (cfg : Configuration) (round : Round) : Nat :=
  match round.decompressedBuffer with
  | none => 0
  | some input => count cfg.decompressedSegSize.toNat input.size

/-- The `Compress` of the round. -/
def runRound (debug : Bool) (st : Machine) (round : Round) : Machine :=
  Runs.run (step debug) (st.compress round.decompressedBuffer) round.envs

/-- `Recycle`. -/
def recycle (st : Machine) (buffers : List Buffer) : Machine :=
  { st with zones := (st.zones.recycle (buffers.map Buffer.data)).2 }

/-- `Compress`, and `Recycle` on what it has returned. -/
def compressAndRecycle (debug : Bool) (st : Machine) (round : Round) : Machine :=
  (runRound debug st round).recycle (runRound debug st round).call.emitted

/-- As many memzones have been taken as segments of the input are assembled,
and no more than necessary are held. -/
structure Demand (start : Zones) (need : Nat) (st : Machine) : Prop where
  occupied_card : st.zones.device.occupiedMemzones.card + st.remaining.length =
    start.device.occupiedMemzones.card + need
  held_le : st.zones.held ≤ max start.held (start.device.occupiedMemzones.card + need)

theorem Demand.of_same {start : Zones} {need : Nat} (h : Demand start need st)
    (hzones : st'.zones = st.zones) (hrem : st'.remaining = st.remaining) :
    Demand start need st' :=
  ⟨by rw [hzones, hrem, h.occupied_card], by rw [hzones]; exact h.held_le⟩

theorem start_demand (st : Machine) (round : Round) :
    Demand st.zones (round.numSegs st.cfg) (st.compress round.decompressedBuffer) := by
  have hzones : (st.compress round.decompressedBuffer).zones = st.zones :=
    start_zones st (.compress round.decompressedBuffer)
  have hrem : (st.compress round.decompressedBuffer).remaining.length = round.numSegs st.cfg := by
    unfold Round.numSegs
    cases round.decompressedBuffer with
    | none =>
        simp only [compress, remaining, Call.remaining, length_inputSpans, Nat.sub_zero]
        exact Nat.div_eq_zero_iff.mpr (by omega)
    | some input => simp [compress, remaining, Call.remaining]
  exact ⟨by rw [hzones, hrem], by rw [hzones]; exact Nat.le_max_left _ _⟩

/-- **Step lemma.** -/
theorem Demand.continues {start : Zones} {need : Nat} (h : Demand start need st)
    (hz : st.ZonesInUse) (hst : st.Ordered) {input : Buffer} {offset : Nat} {out : List Buffer}
    (hcall : st.call = .compress input offset out) {debug : Bool} (hnf : st.NoFault env)
    (hstep : Continues st env (step debug st env)) :
    Demand start need (step debug st env) := by
  have hassemble : st.pc = .assemble → ∃ answers : List (Option Nat), (step debug st env).zones =
      Runs.run (Zones.memStep st.cfg.compressedSegSize) st.zones (answers.map .take) := fun hpc =>
    assembleStep_zones hpc hnf debug ▸ assembleFrom_takes st env
  have hretire : Demand start need ((st.afterHandBack env).retire
      (st.queue.take (st.numDequeued env))) := by
    refine h.of_same ?_ (remaining_retire hst env _)
    rw [retire_afterHandBack (hst.queue_prefix env).1]
  generalize step debug st env = s at hstep hassemble ⊢
  cases hstep with
  | @built st₁ n os ms ops S T hpc built hT =>
      obtain ⟨answers, hzones⟩ := hassemble hpc
      have hzones₁ : st₁.zones = _ := hzones
      have hdest := built.destinations
      rw [hcall] at hdest
      obtain ⟨zs, hsegs, ht⟩ := hdest hz.wellFormed
      have hcard : st₁.zones.device.occupiedMemzones.card =
          st.zones.device.occupiedMemzones.card + n := by
        have hdisj : Disjoint st.zones.device.occupiedMemzones zs.toFinset := by
          rw [Finset.disjoint_right]
          exact fun z hz => ht.fresh z (List.mem_toFinset.mp hz)
        rw [ht.occupied, Finset.card_union_of_disjoint hdisj, List.toFinset_card_of_nodup ht.nodup,
          ← hsegs.length_eq, hT]
      have hrem : st₁.remaining.length + n = st.remaining.length := by
        have hn : n ≤ st.remaining.length := built.n_eq ▸ Nat.min_le_left _ _
        rw [built.remaining_eq, List.length_drop]
        omega
      have hheld := (Zones.held_takes st.cfg.compressedSegSize answers st.zones).1
      rw [← hzones₁] at hheld
      have hocc := h.occupied_card
      have hle := h.held_le
      refine ⟨?_, ?_⟩
      · show st₁.zones.device.occupiedMemzones.card + st₁.remaining.length = _
        omega
      · show st₁.zones.held ≤ _
        omega
  | full hpc hpos => exact h.of_same rfl rfl
  | exhausted hpc hrem hnone =>
      exact h.of_same (zones_drainOrFinish st) (remaining_drainOrFinish st)
  | enqueued hpc hread => exact h.of_same rfl rfl
  | dequeued hpc hsucc => exact hretire.of_same rfl rfl
  | drained hpc hsucc =>
      exact hretire.of_same (zones_drainOrFinish _) (remaining_drainOrFinish _)
  | returned hpc => exact h

/-- The states of a round in which nothing has failed. -/
structure InRound (start : Machine) (need : Nat) (input : Buffer) (st : Machine) : Prop where
  inOrder : InOrder start.cfg start.qp.operationPool start.qp.mbufPool st
  callZones : CallZones start.zones st
  demand : Demand start.zones need st
  call_eq : ∃ offset out, st.call = .compress input offset out

theorem InRound.run {start : Machine} {need : Nat} {input : Buffer} (hb : start.cfg.Bounds)
    {debug : Bool} {envs : List Env} (h : InRound start need input st)
    (hnf : Runs.Along (step debug) NoFault st envs) :
    InRound start need input (Runs.run (step debug) st envs) ∧
      (Lossless start.zones (Runs.run (step debug) st envs) ↔
        Lossless start.zones st ∧ Runs.Along (step debug) FillsAll st envs) := by
  induction envs generalizing st with
  | nil => exact ⟨h, (and_iff_left trivial).symm⟩
  | cons env envs ih =>
      have hb' : st.cfg.Bounds := h.inOrder.cfg_eq ▸ hb
      obtain ⟨hc, hs⟩ := h.inOrder.step hb debug hnf.1
      obtain ⟨offset, out, hcall⟩ := h.call_eq
      obtain ⟨hrun, hlossless⟩ := ih ⟨hs, h.callZones.continues h.inOrder.ordered hb' hc,
        h.demand.continues h.callZones.inUse h.inOrder.ordered hcall hnf.1 hc,
        compress_continues h.call_eq h.inOrder.ordered hc⟩ hnf.2
      refine ⟨hrun, ?_⟩
      rw [Runs.run_cons, Runs.along_cons, hlossless,
        h.callZones.lossless_continues h.inOrder.ordered hb' hcall hc, and_assoc]

/-- Recycling the output of a call that has returned OK puts back all memzones in
use. -/
theorem InRound.recycle_eq {start st : Machine} {need : Nat} {input : Buffer}
    (h : InRound start need input st) (hidle : st.Idle) :
    st.recycle st.call.emitted = { st with
      zones := { st.zones with device := { st.zones.device with
        memzonePool := st.zonesInUse ++ st.zones.device.memzonePool
        occupiedMemzones := st.zones.device.occupiedMemzones \ st.zonesInUse.toFinset } } } := by
  have huse : st.zonesInUse = st.call.emitted.filterMap Buffer.memzone := by
    simp [zonesInUse, pendingOps, hidle.pending]
  obtain ⟨hwf, hnd, hoccupied, -, hbuffers, -⟩ := h.callZones.inUse
  unfold recycle
  rw [map_data_eq hbuffers, ← huse, Zones.recycle_memzones hnd fun z hz =>
    ⟨hwf.occupied_allocated z (hoccupied z hz), hoccupied z hz⟩]

/-- Nothing was lost since `start`, when what is taken and not in use was taken
at `start`. -/
theorem InRound.lossless_iff {start st : Machine} {need : Nat} {input : Buffer}
    (h : InRound start need input st) :
    st.zones.device.occupiedMemzones \ st.zonesInUse.toFinset =
        start.zones.device.occupiedMemzones ↔ Lossless start.zones st := by
  constructor
  · intro he z hz
    by_cases hu : z ∈ st.zonesInUse
    · exact Or.inr hu
    · left
      rw [← he]
      exact Finset.mem_sdiff.mpr ⟨hz, by rwa [List.mem_toFinset]⟩
  · intro hlossless
    ext z
    rw [Finset.mem_sdiff, List.mem_toFinset]
    constructor
    · rintro ⟨hz, hn⟩
      exact (hlossless z hz).resolve_right hn
    · intro hz
      exact ⟨h.callZones.since.occupied_subset z hz, fun hu => h.callZones.taken z hu hz⟩

/-- **One round** that returns OK. -/
theorem Idle.round (hidle : st.Idle) (hb : st.cfg.Bounds)
    (hwf : st.zones.WellFormed st.cfg.compressedSegSize) (debug : Bool) (round : Round)
    (hok : (runRound debug st round).result = some .success) :
    let s := compressAndRecycle debug st round
    s.Idle ∧ s.cfg = st.cfg ∧ s.zones.WellFormed st.cfg.compressedSegSize ∧
      s.zones.held ≤ max st.zones.held
        (st.zones.device.occupiedMemzones.card + round.numSegs st.cfg) ∧
      (s.zones.device.occupiedMemzones = st.zones.device.occupiedMemzones ↔
        Runs.Along (step debug) FillsAll (st.compress round.decompressedBuffer) round.envs) := by
  have hzones : (st.compress round.decompressedBuffer).zones = st.zones :=
    start_zones st (.compress round.decompressedBuffer)
  have hcall : ∃ input offset out,
      (st.compress round.decompressedBuffer).call = .compress input offset out := by
    cases round.decompressedBuffer <;> exact ⟨_, _, _, rfl⟩
  obtain ⟨input, hcall⟩ := hcall
  have hnf := hidle.noFault_of_success hb (.compress round.decompressedBuffer) debug hok
  have hstart : InRound st (round.numSegs st.cfg) input (st.compress round.decompressedBuffer) :=
    ⟨hidle.start_inOrder (.compress round.decompressedBuffer),
      hidle.start_callZones hwf (.compress round.decompressedBuffer), st.start_demand round, hcall⟩
  obtain ⟨hdone, hlossless⟩ := hstart.run hb hnf
  have hnothing : Lossless st.zones (st.compress round.decompressedBuffer) := fun z hz =>
    Or.inl (hzones ▸ hz)
  rw [and_iff_right hnothing] at hlossless
  change InRound st _ input (runRound debug st round) at hdone
  change Lossless st.zones (runRound debug st round) ↔ _ at hlossless
  unfold compressAndRecycle
  generalize runRound debug st round = done at hok hdone hlossless
  have hpc := result_eq_some.mp hok
  have hdoneIdle := hdone.inOrder.ordered.idle hpc
  obtain ⟨hwf', hnd, hoccupied, hsize, -, -⟩ := hdone.callZones.inUse
  rw [hdone.recycle_eq hdoneIdle]
  refine ⟨⟨hdoneIdle.pending, hdoneIdle.numOpsAssembled, hdoneIdle.queue⟩, hdone.inOrder.cfg_eq,
    ?_, ?_, hdone.lossless_iff.trans hlossless⟩
  · rw [← hdone.inOrder.cfg_eq]
    exact hwf'.putBack hnd fun z hz => ⟨hoccupied z hz, hsize z hz⟩
  · have hheld := hdone.demand.held_le
    have hcard := Finset.card_sdiff_add_card_eq_card
      (show done.zonesInUse.toFinset ⊆ done.zones.device.occupiedMemzones from
        fun z hz => hoccupied z (List.mem_toFinset.mp hz))
    rw [List.toFinset_card_of_nodup hnd] at hcard
    simp only [Zones.held, List.length_append] at hheld ⊢
    omega

/-! ## Any number of rounds -/

/-- The round leaves the set of taken memzones as it was. -/
def Conserves (debug : Bool) (st : Machine) (round : Round) : Prop :=
  (compressAndRecycle debug st round).zones.device.occupiedMemzones =
    st.zones.device.occupiedMemzones

/-- In the round, the output of every operation reaches its last destination
segment. -/
def FillsRound (debug : Bool) (st : Machine) (round : Round) : Prop :=
  Runs.Along (step debug) FillsAll (st.compress round.decompressedBuffer) round.envs

instance (debug : Bool) (st : Machine) (round : Round) : Decidable (FillsRound debug st round) := by
  unfold FillsRound
  infer_instance

/-- **Memzone conservation.**  Rounds that return OK keep the set of taken
memzones exactly when the output of every operation reaches the last segment of
its destination chain.  The device then never holds more memzones than at the
beginning or than the largest round needs in addition to those taken before. -/
theorem memzone_conservation (hcfg : Accepted st.cfg) (hidle : st.Idle)
    (hwf : st.zones.WellFormed st.cfg.compressedSegSize) (debug : Bool) (rounds : List Round)
    (hok : Runs.Along (compressAndRecycle debug)
      (fun s round => (runRound debug s round).result = some .success) st rounds) :
    (Runs.Along (compressAndRecycle debug) (Conserves debug) st rounds ↔
      Runs.Along (compressAndRecycle debug) (FillsRound debug) st rounds) ∧
    (Runs.Along (compressAndRecycle debug) (FillsRound debug) st rounds →
      let s := Runs.run (compressAndRecycle debug) st rounds
      s.zones.device.occupiedMemzones = st.zones.device.occupiedMemzones ∧
      ∀ need, (∀ round ∈ rounds, round.numSegs st.cfg ≤ need) →
        s.zones.held ≤ max st.zones.held (st.zones.device.occupiedMemzones.card + need)) := by
  have hb := hcfg.bounds
  clear hcfg
  induction rounds generalizing st with
  | nil =>
      refine ⟨Iff.rfl, fun _ => ⟨rfl, fun need _ => Nat.le_max_left _ _⟩⟩
  | cons round rounds ih =>
      obtain ⟨hidle', hcfg', hwf', hheld, hocc⟩ := hidle.round hb hwf debug round hok.1
      rw [← hcfg'] at hwf' hb
      obtain ⟨hiff, hrest⟩ := ih hidle' hwf' hok.2 hb
      refine ⟨?_, ?_⟩
      · rw [Runs.along_cons, Runs.along_cons, hiff]
        exact and_congr_left fun _ => hocc
      · rintro ⟨hfill, hfills⟩
        obtain ⟨hsame, hle⟩ := hrest hfills
        have hsame' := hocc.mpr hfill
        refine ⟨hsame.trans hsame', fun need hneed => ?_⟩
        have h1 := hneed round (by simp)
        have h2 := hle need fun r hr => hcfg' ▸ hneed r (by simp [hr])
        rw [hsame'] at h2
        rw [Runs.run_cons]
        omega

/-- One operation with a segment of eight bytes, compressed to seven. -/
def sampleRound : Round where
  decompressedBuffer := some ⟨⟨.host 0, 0⟩, 8⟩
  envs :=
    [{ bulk := ⟨some [0], some [0, 1]⟩ }, { numAccepted := 1 },
      { results := [⟨.success, List.replicate 7 5⟩] }, {}]

theorem memzone_conservation_sample :
    (Runs.run (compressAndRecycle true) (sampleMachine 1 1)
      [sampleRound, sampleRound]).zones.held ≤ 1 :=
  ((memzone_conservation sampleConfig_accepted.1 (sampleMachine_idle 1 1)
    (sampleMachine_wellFormed 1 1) true [sampleRound, sampleRound] (by decide +kernel)).2
      (by decide +kernel)).2 1 (by decide)

/-- One operation with two segments of eight bytes; ten bytes of output fill
one destination segment only. -/
def shortRound : Round where
  decompressedBuffer := some ⟨⟨.host 0, 0⟩, 16⟩
  envs :=
    [{ bulk := ⟨some [0], some [0, 1, 2, 3]⟩ }, { numAccepted := 1 },
      { results := [⟨.success, List.replicate 10 5⟩] }, {}]

/-- Every such round takes a memzone that never comes back. -/
theorem memzone_conservation_short :
    let s := compressAndRecycle true (sampleMachine 2 3) shortRound
    let t := compressAndRecycle true s shortRound
    (runRound true (sampleMachine 2 3) shortRound).result = some .success ∧
    (runRound true s shortRound).result = some .success ∧
    (sampleMachine 2 3).zones.device.occupiedMemzones.card = 0 ∧
    s.zones.device.occupiedMemzones.card = 1 ∧ t.zones.device.occupiedMemzones.card = 2 := by
  decide +kernel

end Machine

end Bitar
