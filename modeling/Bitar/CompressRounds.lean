import Bitar.Devices

/-!
# A round of compression on one device

A program gives each of the first `n` queue pairs of a device one input to
compress.  The calls begin in any order, and their steps interleave.

`called` are the queue pairs on which the call of this round has begun.

**Results.**
* `Attended.call`, `Attended.step`: what an event does to the queue pairs.
* `CompressRound.call`, `CompressRound.step`: the step lemmas of a round.
* `CompressRound.elsewhere`: work on the other devices.
-/

namespace Bitar

open BlockStore Pieces

/-- What the device makes of the blocks of an input, cut into segments. -/
def Configuration.streams (cfg : Configuration) (enc : List UInt8 → List UInt8)
    (input : List UInt8) : List (List UInt8) :=
  (cfg.blocks input).flatMap fun block => pieces cfg.segLen (enc block)

/-- The stream of every block fits the segments of its operation. -/
def Configuration.Fits (cfg : Configuration) (enc : List UInt8 → List UInt8)
    (input : List UInt8) : Prop :=
  ∀ block ∈ cfg.blocks input,
    (enc block).length ≤ count cfg.decompressedSegSize.toNat block.length * cfg.segLen

namespace Session

open Machine

variable {s : Session} {cfg : Configuration} {zones later : Zones} {debug : Bool}
  {n queuePairId : Nat} {called : Set Nat}

/-- A started device on which calls have begun on the queue pairs `called`, among
the first `n` ones. -/
structure Attended (cfg : Configuration) (zones : Zones) (n : Nat) (called : Set Nat)
    (s : Session) : Prop where
  separate : Separate cfg zones s
  started : s.device.state = .started
  le_numQps : n ≤ s.device.numQps
  idle : ∀ q ∉ called, ∃ status, (s.lanes q).pc = .returned status
  lt_of_called : ∀ q ∈ called, q < n

theorem Attended.ready (h : Attended cfg zones n called s) (hq : queuePairId < n) :
    (s.machineOf cfg zones queuePairId).Ready :=
  ⟨h.started, Nat.lt_of_lt_of_le hq h.le_numQps⟩

theorem Attended.idle_machine (h : Attended cfg zones n called s) (hq : queuePairId ∉ called) :
    (s.machineOf cfg zones queuePairId).Idle := by
  obtain ⟨opPool, mbufPool, hin⟩ := h.separate.inService.inOrder queuePairId
  obtain ⟨status, hpc⟩ := h.idle queuePairId hq
  exact hin.ordered.idle hpc

/-- A device on which no call is in progress is at rest. -/
theorem Attended.atRest (h : Attended cfg zones n ∅ s) (haccepted : Accepted cfg) :
    AtRest cfg zones s :=
  have hservice := h.separate.inService
  ⟨haccepted, hservice.configuration_eq, hservice.zones_eq, hservice.owned, hservice.numQps_le,
    fun q => h.idle_machine (Set.notMem_empty q), fun q => h.idle q (Set.notMem_empty q)⟩

/-- A call in progress has begun in this round. -/
theorem Attended.called_of_none (h : Attended cfg zones n called s)
    (hnone : (s.machineOf cfg zones queuePairId).result = none) : queuePairId ∈ called := by
  by_contra hnot
  obtain ⟨status, hpc⟩ := h.idle queuePairId hnot
  rw [result_eq_some.mpr (show (s.machineOf cfg zones queuePairId).pc = _ from hpc)] at hnone
  cases hnone

theorem Attended.moved {event : Event} {actor : Nat} {called' : Set Nat}
    (h : Attended cfg zones n called s) (horderly : s.Orderly debug event)
    (hmoved : Moved cfg zones later s (s.act debug event) (some actor))
    (hcalled : ∀ q, q ∈ called' ↔ q = actor ∨ q ∈ called) (hactor : actor < n) :
    Attended cfg later n called' (s.act debug event) := by
  obtain ⟨hstate, hlcores, -⟩ := horderly.device_eq
  refine ⟨hmoved.separate, hstate.trans h.started, ?_, fun q hq => ?_, fun q hq => ?_⟩
  · rw [CompressDevice.numQps, hlcores]
    exact h.le_numQps
  · rw [hcalled, not_or] at hq
    obtain ⟨status, hpc⟩ := h.idle q hq.2
    exact ⟨status, (hmoved.lane_eq (by simpa using hq.1)).1.trans hpc⟩
  · rcases (hcalled q).mp hq with rfl | hq
    · exact hactor
    · exact h.lt_of_called q hq

/-- Work on the other devices. -/
theorem Attended.elsewhere {s' : Session} {kept : Block → Prop}
    (h : Attended cfg zones n called s) (helse : Elsewhere kept s s')
    (hkept : ∀ q, ∀ b ∈ (s.machineOf cfg zones q).footprint.blocks, kept b) :
    Attended cfg (zones.withPool s'.pool) n called s' := by
  refine ⟨(h.separate.elsewhere helse hkept).separate, ?_, ?_, ?_, h.lt_of_called⟩
  · rw [helse.device_eq]
    exact h.started
  · rw [helse.device_eq]
    exact h.le_numQps
  · rw [helse.lanes_eq]
    exact h.idle

/-! ## The invariant of a round -/

variable {enc : List UInt8 → List UInt8} {inputs : Nat → Buffer} {data : Nat → List UInt8}

/-- The invariant: `data` are the contents of the inputs. -/
structure CompressRound (enc : List UInt8 → List UInt8) (cfg : Configuration)
    (inputs : Nat → Buffer) (data : Nat → List UInt8) (n : Nat) (zones : Zones)
    (called : Set Nat) (s : Session) : Prop where
  attended : Attended cfg zones n called s
  inputs_host : ∀ q < n, ∃ id, (inputs q).data.block = .host id
  inputs_stored : ∀ q < n, Stored cfg zones s [inputs q] [data q]
  going : ∀ q ∈ called, (s.machineOf cfg zones q).result = none →
    ∃ memory, (inputs q).bytes memory = data q ∧
      Compresses enc cfg (inputs q) memory (s.machineOf cfg zones q)
  done : ∀ q ∈ called, ∀ status, (s.lanes q).pc = .returned status → status = .success ∧
    Result cfg zones s (s.lanes q).call.emitted (cfg.streams enc (data q)) ∧
    cfg.Fits enc (data q)
  apart : ∀ p ∈ called, ∀ q ∈ called, p ≠ q →
    (∃ status, (s.lanes p).pc = .returned status) →
    (∃ status, (s.lanes q).pc = .returned status) →
    ∀ b ∈ blocksOf (s.lanes p).call.emitted, b ∉ blocksOf (s.lanes q).call.emitted

/-- The request of a queue pair. -/
def compressRequest (inputs : Nat → Buffer) (q : Nat) : Request :=
  .compress (some (inputs q))

/-- A new call may begin. -/
theorem CompressRound.orderly (h : CompressRound enc cfg inputs data n zones called s)
    (hq : queuePairId < n) (hnot : queuePairId ∉ called) :
    s.Orderly debug (.call queuePairId (compressRequest inputs queuePairId)) := by
  refine h.attended.separate.orderly_call (h.attended.idle queuePairId hnot) (fun b hb => ?_)
    fun b hb => ?_
  · obtain rfl := List.mem_singleton.mp hb
    have hheld := (h.inputs_stored queuePairId hq).held
    have hmine : (inputs queuePairId).data.block ∈ blocksOf [inputs queuePairId] :=
      List.mem_singleton.mpr rfl
    exact ⟨hheld.settled _ hmine, fun other hw => hheld.spared other _ hw hmine⟩
  · have hnone : (s.machineOf cfg zones queuePairId |>.start
        (compressRequest inputs queuePairId)).writeBlocks = [] := by
      have huse := (h.attended.idle_machine hnot).start_zonesInUse
        (compressRequest inputs queuePairId)
      exact congrArg (List.map Block.memzone) huse
    rw [hnone] at hb
    cases hb

/-- A call that has something to compress goes on; the others return at once. -/
theorem compress_begins {st : Machine} (hready : st.Ready) (hidle : st.Idle) (input : Buffer) :
    ((st.compress (some input)).result = none ∧ 0 < input.size) ∨
      ((st.compress (some input)).pc = .returned .success ∧ input.size = 0) := by
  rcases Nat.eq_zero_or_pos input.size with hzero | hpos
  · exact Or.inr ⟨by simp [compress, hzero], hzero⟩
  · refine Or.inl ⟨?_, hpos⟩
    simp [compress, result, Nat.ne_of_gt hpos, guardStatus_ok hready hidle, Status.success]

/-- **Step lemma**: a call begins. -/
theorem CompressRound.call (h : CompressRound enc cfg inputs data n zones called s)
    (hb : cfg.Bounds) (hq : queuePairId < n) (hnot : queuePairId ∉ called) :
    CompressRound enc cfg inputs data n zones (insert queuePairId called)
      (s.act debug (.call queuePairId (compressRequest inputs queuePairId))) := by
  have hs := h.attended.separate
  have horderly := @CompressRound.orderly s cfg zones debug n queuePairId called enc inputs data
    h hq hnot
  obtain ⟨hmoved, hlane⟩ := hs.call horderly.1 horderly.2
  have hready := h.attended.ready hq
  have hidle := h.attended.idle_machine hnot
  have hbegins := compress_begins hready hidle (inputs queuePairId)
  have hlane' : (s.act debug (.call queuePairId (compressRequest inputs queuePairId))).machineOf
      cfg zones queuePairId =
        (s.machineOf cfg zones queuePairId).compress (some (inputs queuePairId)) := hlane
  rw [← hlane'] at hbegins
  have hemitted : ((s.act debug (.call queuePairId
      (compressRequest inputs queuePairId))).lanes queuePairId).call.emitted = [] :=
    congrArg (fun st : Machine => st.call.emitted) hlane'
  -- nothing is written
  have hkeeps : ∀ blocks, s.Keeps blocks (.call queuePairId
      (compressRequest inputs queuePairId)) := by
    intro blocks st hst b hw
    obtain rfl := Option.some.inj ((machine_eq hs.inService.configuration_eq
      hs.inService.zones_eq queuePairId).symm.trans hst)
    have huse := hidle.start_zonesInUse (compressRequest inputs queuePairId)
    have hnone : ((s.machineOf cfg zones queuePairId).start
        (compressRequest inputs queuePairId)).writeBlocks = [] :=
      congrArg (List.map Block.memzone) huse
    have hw' := writes_subset _ b hw
    rw [hnone] at hw'
    cases hw'
  refine ⟨h.attended.moved horderly hmoved (fun q => Set.mem_insert_iff) hq, h.inputs_host,
    fun q hq' => (h.inputs_stored q hq').act hs hb horderly (hkeeps _) hmoved.separate,
    fun q hcalled hnone => ?_, fun q hcalled status hpc => ?_, fun p hp q hq' hne hrp hrq => ?_⟩
  · by_cases hsame : q = queuePairId
    · subst hsame
      have hbytes := (h.inputs_stored q hq).contents_eq
      refine ⟨s.memory, by simpa using hbytes, ?_⟩
      rw [hlane']
      refine compresses_start hb hready hidle hs.inService.wellFormed ?_ ?_
      · rcases hbegins with ⟨-, hpos⟩ | ⟨hpc, -⟩
        · exact hpos
        · rw [result_eq_some.mpr hpc] at hnone
          cases hnone
      · exact (h.inputs_stored q hq).held.settled _ (List.mem_singleton.mpr rfl)
    · have hne : some q ≠ some queuePairId := by simpa using hsame
      have hnone' : (s.machineOf cfg zones q).result = none := by
        rwa [hmoved.shared q hne] at hnone
      obtain ⟨memory, hbytes, hcompresses⟩ :=
        h.going q (Set.mem_of_mem_insert_of_ne hcalled hsame) hnone'
      exact ⟨memory, hbytes, hcompresses.stable hnone' (hmoved.others q hne hnone')⟩
  · by_cases hsame : q = queuePairId
    · subst hsame
      rcases hbegins with ⟨hnone, -⟩ | ⟨hpc', hzero⟩
      · rw [result_eq_some.mpr (show (Session.machineOf _ cfg zones q).pc = _ from hpc)] at hnone
        cases hnone
      · have hdata : data q = [] := by
          have hbytes := (h.inputs_stored q hq).contents_eq
          simpa [Buffer.bytes, hzero] using hbytes.symm
        have hblocks : cfg.blocks (data q) = [] := by
          rw [hdata, Configuration.blocks]
          exact pieces_nil hb.blockSize_pos
        have hstreams : cfg.streams enc (data q) = [] := by
          rw [Configuration.streams, hblocks]
          rfl
        rw [hemitted, hstreams]
        exact ⟨Pc.returned.inj (hpc.symm.trans hpc'),
          ⟨⟨⟨.refl _ _, by simp [blocksOf], by simp [blocksOf]⟩, rfl⟩, by simp, by simp, by simp⟩,
          fun block hblock => by rw [hblocks] at hblock; cases hblock⟩
    · have hne : some q ≠ some queuePairId := by simpa using hsame
      obtain ⟨hpc', hcall⟩ := hmoved.lane_eq hne
      rw [hpc'] at hpc
      rw [hcall]
      obtain ⟨hok, hresult, hfits⟩ :=
        h.done q (Set.mem_of_mem_insert_of_ne hcalled hsame) status hpc
      exact ⟨hok, hresult.act hs hb horderly (hkeeps _) hmoved.separate, hfits⟩
  · by_cases hp' : p = queuePairId
    · subst hp'
      rw [hemitted]
      simp [blocksOf]
    · by_cases hq'' : q = queuePairId
      · subst hq''
        rw [hemitted]
        simp [blocksOf]
      · have hep := hmoved.lane_eq (show some p ≠ some queuePairId by simpa using hp')
        have heq := hmoved.lane_eq (show some q ≠ some queuePairId by simpa using hq'')
        rw [hep.1] at hrp
        rw [heq.1] at hrq
        rw [hep.2, heq.2]
        exact h.apart p (Set.mem_of_mem_insert_of_ne hp hp') q
          (Set.mem_of_mem_insert_of_ne hq' hq'') hne hrp hrq

/-- What a call comes to write is not under a buffer that somebody holds. -/
theorem Held.fresh {blocks : List Block} {memory : Memory} {env : Env} {st' : Machine}
    (hheld : Held blocks memory cfg zones s) (hs : Separate cfg zones s) (hb : cfg.Bounds)
    (hnone : (s.machineOf cfg zones queuePairId).result = none)
    (hadvances : Advances debug (s.machineOf cfg zones queuePairId) env st') :
    ∀ b ∈ st'.writeBlocks, b ∉ blocks := by
  intro b hw hblock
  have hwf : (s.machineOf cfg zones queuePairId).zones.WellFormed
      (s.machineOf cfg zones queuePairId).cfg.compressedSegSize := hs.inService.wellFormed
  rcases hadvances.continues.writeBlocks_grow hadvances.ordered hb
    (hs.party queuePairId hnone).reserves hwf b hw with hold | hnew
  · refine hheld.spared queuePairId b ?_ hblock
    rwa [footprint_of_none hnone]
  · exact hnew (hheld.settled b hblock)

/-- **Step lemma**: a step of a call. -/
theorem CompressRound.step (h : CompressRound enc cfg inputs data n zones called s)
    (hb : cfg.Bounds) (hcalled : queuePairId ∈ called)
    (hnone : (s.machineOf cfg zones queuePairId).result = none) {env : Env}
    (hok : s.Succeeds debug (.step queuePairId env))
    (henc : Encodes enc (s.machineOf cfg zones queuePairId) env) :
    ∃ later, CompressRound enc cfg inputs data n later called
      (s.act debug (.step queuePairId env)) := by
  have hs := h.attended.separate
  have horderly : s.Orderly debug (.step queuePairId env) := ⟨hok, trivial⟩
  obtain ⟨later, hmoved, hadvances, hparty⟩ := hs.step hb hok
  have hparty := hparty hnone
  obtain ⟨memory, hbytes, hcompresses⟩ := h.going queuePairId hcalled hnone
  have hnext := hcompresses.own hb rfl hadvances henc
  refine ⟨later, h.attended.moved horderly hmoved (fun q => ?_)
      (h.attended.lt_of_called _ hcalled), h.inputs_host,
    fun q hq => (h.inputs_stored q hq).act hs hb horderly trivial hmoved.separate,
    fun q hq hnone' => ?_, fun q hq status hpc => ?_, fun p hp q hq hne hrp hrq => ?_⟩
  · exact ⟨Or.inr, fun hq => hq.elim (fun he => he ▸ hcalled) id⟩
  · by_cases hsame : q = queuePairId
    · subst hsame
      exact ⟨memory, hbytes, hnext⟩
    · have hne : some q ≠ some queuePairId := by simpa using hsame
      have hnone'' : (s.machineOf cfg zones q).result = none := by
        rwa [hmoved.shared q hne] at hnone'
      obtain ⟨memory, hbytes, hcompresses⟩ := h.going q hq hnone''
      exact ⟨memory, hbytes, hcompresses.stable hnone'' (hmoved.others q hne hnone'')⟩
  · by_cases hsame : q = queuePairId
    · subst hsame
      have hpc' : ((s.act debug (.step q env)).machineOf cfg later q).pc = .returned status := hpc
      obtain ⟨opPool, mbufPool, hin⟩ := hmoved.separate.inService.inOrder q
      obtain ⟨hcontents, hfits⟩ := hnext.returned rfl hin.ordered hb hpc'
      rw [hbytes] at hcontents hfits
      exact ⟨hadvances.continues.status_eq hnone hpc', hparty.result hpc hcontents, hfits⟩
    · have hne : some q ≠ some queuePairId := by simpa using hsame
      obtain ⟨hpc', hcall⟩ := hmoved.lane_eq hne
      rw [hpc'] at hpc
      rw [hcall]
      obtain ⟨hok, hresult, hfits⟩ := h.done q hq status hpc
      exact ⟨hok, hresult.act hs hb horderly trivial hmoved.separate, hfits⟩
  · -- what the call has written lies apart from the earlier results
    have hmine : ∀ p ∈ called, p ≠ queuePairId → (∃ status, (s.lanes p).pc = .returned status) →
        ∀ b ∈ blocksOf ((s.act debug (.step queuePairId env)).lanes queuePairId).call.emitted,
          b ∉ blocksOf (s.lanes p).call.emitted := by
      rintro p hp - ⟨status, hpc⟩ b hmem
      exact (h.done p hp status hpc).2.1.held.fresh hs hb hnone hadvances b
        (hparty.blocksOf_emitted b hmem)
    by_cases hp' : p = queuePairId
    · subst hp'
      have heq := hmoved.lane_eq (show some q ≠ some p by simpa using Ne.symm hne)
      rw [heq.1] at hrq
      rw [heq.2]
      exact hmine q hq (Ne.symm hne) hrq
    · have hep := hmoved.lane_eq (show some p ≠ some queuePairId by simpa using hp')
      rw [hep.1] at hrp
      rw [hep.2]
      by_cases hq' : q = queuePairId
      · subst hq'
        exact fun b hbp hbq => hmine p hp hne hrp b hbq hbp
      · have heq := hmoved.lane_eq (show some q ≠ some queuePairId by simpa using hq')
        rw [heq.1] at hrq
        rw [heq.2]
        exact h.apart p hp q hq hne hrp hrq

/-! ## The other devices -/

/-- The blocks that the buffers of the first `n` queue pairs lie in. -/
def hostBlocks (hosts : Nat → Buffer) (n : Nat) : Set Block :=
  {b | ∃ q < n, b = (hosts q).data.block}

theorem mem_hostBlocks {hosts : Nat → Buffer} {q : Nat} (hq : q < n) :
    (hosts q).data.block ∈ hostBlocks hosts n :=
  ⟨q, hq, rfl⟩

/-- The memzones in use are taken. -/
theorem Separate.writes_occupied (h : Separate cfg zones s) {q : Nat}
    (hout : (s.machineOf cfg zones q).call.outputBlock = none) {b : Block}
    (hb : b ∈ (s.machineOf cfg zones q).footprint.writes) :
    ∃ z ∈ zones.device.occupiedMemzones, b = .memzone z := by
  have hnone := result_of_mem_blocks (Footprint.mem_blocks.mpr (Or.inr hb))
  have hwrites := writes_subset _ b hb
  rw [writeBlocks, hout] at hwrites
  obtain ⟨z, hz, rfl⟩ := List.mem_map.mp hwrites
  exact ⟨z, ((h.party q hnone).inUse h.inService z hz).1, rfl⟩

/-- The call in progress on a queue pair. -/
theorem CompressRound.call_eq (h : CompressRound enc cfg inputs data n zones called s) {q : Nat}
    (hnone : (s.machineOf cfg zones q).result = none) :
    q < n ∧ ∃ offset out, (s.machineOf cfg zones q).call = .compress (inputs q) offset out := by
  have hcalled := h.attended.called_of_none hnone
  obtain ⟨memory, -, hcompresses⟩ := h.going q hcalled hnone
  exact ⟨h.attended.lt_of_called q hcalled, hcompresses.1.compress⟩

/-- The calls of a round write taken memzones only. -/
theorem CompressRound.writes (h : CompressRound enc cfg inputs data n zones called s) {q : Nat}
    {b : Block} (hb : b ∈ (s.machineOf cfg zones q).footprint.writes) :
    ∃ z ∈ zones.device.occupiedMemzones, b = .memzone z := by
  obtain ⟨-, offset, out, hcall⟩ :=
    h.call_eq (result_of_mem_blocks (Footprint.mem_blocks.mpr (Or.inr hb)))
  exact h.attended.separate.writes_occupied (by rw [hcall]; rfl) hb

/-- The calls of a round touch nothing but that and the inputs. -/
theorem CompressRound.relies (h : CompressRound enc cfg inputs data n zones called s) {q : Nat}
    {b : Block} (hb : b ∈ (s.machineOf cfg zones q).footprint.blocks) :
    Relies zones (hostBlocks inputs n) b := by
  rcases Footprint.mem_blocks.mp hb with hr | hw
  · obtain ⟨hq, offset, out, hcall⟩ := h.call_eq (result_of_mem_blocks hb)
    have hread := reads_subset _ b hr
    rw [hcall] at hread
    obtain rfl := List.mem_singleton.mp hread
    exact Or.inl (mem_hostBlocks hq)
  · exact Or.inr (h.writes hw)

/-- **Frame rule** of a round. -/
theorem CompressRound.elsewhere {s' : Session}
    (h : CompressRound enc cfg inputs data n zones called s)
    (helse : Elsewhere (Relies zones (hostBlocks inputs n)) s s') :
    CompressRound enc cfg inputs data n (zones.withPool s'.pool) called s' := by
  have hs := h.attended.separate
  have hzones := hs.inService.zones_eq
  have hrelies : ∀ q, ∀ b ∈ (s.machineOf cfg zones q).footprint.blocks,
      Relies zones (hostBlocks inputs n) b := fun q b hb => h.relies hb
  have hmoved := hs.elsewhere helse hrelies
  refine ⟨h.attended.elsewhere helse hrelies, h.inputs_host, fun q hq => ?_,
    fun q hq hnone => ?_, fun q hq status hpc => ?_, ?_⟩
  · refine (h.inputs_stored q hq).elsewhere hzones helse fun b hb => ?_
    obtain rfl := List.mem_singleton.mp hb
    exact Or.inl (mem_hostBlocks hq)
  · have hnone' : (s.machineOf cfg zones q).result = none := by
      rwa [helse.machineOf_eq] at hnone
    obtain ⟨memory, hbytes, hcompresses⟩ := h.going q hq hnone'
    exact ⟨memory, hbytes, hcompresses.stable hnone' (hmoved.others q (by simp) hnone')⟩
  · rw [helse.lanes_eq] at hpc ⊢
    obtain ⟨hok, hresult, hfits⟩ := h.done q hq status hpc
    exact ⟨hok, hresult.elsewhere hzones helse, hfits⟩
  · rw [helse.lanes_eq]
    exact h.apart

/-! ## Between two rounds -/

/-- No call is in progress, the vectors of `pending` have not been recycled, and
the `n` buffers outside the memzones hold `data`. -/
structure Holding (enc : List UInt8 → List UInt8) (cfg : Configuration) (hosts : Nat → Buffer)
    (data : Nat → List UInt8) (n : Nat) (vectors : Nat → List Buffer) (pending : Set Nat)
    (zones : Zones) (s : Session) : Prop where
  attended : Attended cfg zones n ∅ s
  hosts_host : ∀ q < n, ∃ id, (hosts q).data.block = .host id
  hosts_stored : ∀ q < n, Stored cfg zones s [hosts q] [data q]
  results : ∀ q ∈ pending, Result cfg zones s (vectors q) (cfg.streams enc (data q))
  apart : ∀ p ∈ pending, ∀ q ∈ pending, p ≠ q →
    ∀ b ∈ blocksOf (vectors p), b ∉ blocksOf (vectors q)

variable {vectors : Nat → List Buffer} {pending : Set Nat} {hosts : Nat → Buffer}

theorem Attended.finished (h : Attended cfg zones n called s)
    (hall : ∀ q ∈ called, ∃ status, (s.lanes q).pc = .returned status) :
    Attended cfg zones n ∅ s := by
  refine ⟨h.separate, h.started, h.le_numQps, fun q _ => ?_, by simp⟩
  by_cases hq : q ∈ called
  · exact hall q hq
  · exact h.idle q hq

/-- Only the pending vectors matter. -/
theorem Holding.congr {vectors' : Nat → List Buffer}
    (h : Holding enc cfg hosts data n vectors pending zones s)
    (heq : ∀ q ∈ pending, vectors' q = vectors q) :
    Holding enc cfg hosts data n vectors' pending zones s := by
  refine ⟨h.attended, h.hosts_host, h.hosts_stored, fun q hq => ?_, fun p hp q hq => ?_⟩
  · rw [heq q hq]
    exact h.results q hq
  · rw [heq p hp, heq q hq]
    exact h.apart p hp q hq

/-- What a round leaves behind. -/
theorem CompressRound.holding (h : CompressRound enc cfg inputs data n zones called s)
    (hall : ∀ q ∈ called, ∃ status, (s.lanes q).pc = .returned status)
    (hvectors : ∀ q ∈ called, vectors q = (s.lanes q).call.emitted) :
    Holding enc cfg inputs data n vectors called zones s := by
  refine ⟨h.attended.finished hall, h.inputs_host, h.inputs_stored, fun q hq => ?_,
    fun p hp q hq hne => ?_⟩
  · obtain ⟨status, hpc⟩ := hall q hq
    rw [hvectors q hq]
    exact (h.done q hq status hpc).2.1
  · rw [hvectors p hp, hvectors q hq]
    exact h.apart p hp q hq hne (hall p hp) (hall q hq)

/-- When all vectors are recycled, the next round may begin. -/
theorem Holding.compressRound (h : Holding enc cfg inputs data n vectors pending zones s) :
    CompressRound enc cfg inputs data n zones ∅ s :=
  ⟨h.attended, h.hosts_host, h.hosts_stored, by simp, by simp, by simp⟩

theorem Result.block_memzone {v : List Buffer} {contents : List (List UInt8)}
    (h : Result cfg zones s v contents) : ∀ b ∈ blocksOf v, ∃ z, b = .memzone z := by
  intro b hb
  obtain ⟨buffer, hbuffer, rfl⟩ := List.mem_map.mp hb
  obtain ⟨z, hz⟩ := h.buffers buffer hbuffer
  exact ⟨z, by rw [hz]; rfl⟩

/-- **Step lemma**: a vector is recycled. -/
theorem Holding.recycle (h : Holding enc cfg hosts data n vectors pending zones s)
    (hb : cfg.Bounds) {q : Nat} (hq : q ∈ pending) :
    s.recycled (vectors q) = (vectors q).length ∧
      ∃ later, Holding enc cfg hosts data n vectors (pending \ {q}) later
        (s.act debug (.recycle (vectors q))) := by
  have hs := h.attended.separate
  have hempty : ∀ p, s.footprint p = {} := by
    intro p
    obtain ⟨status, hpc⟩ := h.attended.idle p (Set.notMem_empty p)
    rw [hs.inService.footprint_eq]
    exact footprint_of_returned (show (s.machineOf cfg zones p).pc = _ from hpc)
  have horderly : s.Orderly debug (.recycle (vectors q)) := by
    refine ⟨trivial, fun buffer _ p _ hmem => ?_⟩
    rw [hempty p] at hmem
    cases hmem
  have hmoved := @Separate.recycle s cfg zones debug hs _ horderly.2
  obtain ⟨hstate, hlcores, -⟩ := horderly.device_eq
  refine ⟨(h.results q hq).recycled hs, _, ⟨hmoved.separate, hstate.trans h.attended.started,
    ?_, fun p _ => ?_, by simp⟩, h.hosts_host, fun p hp => ?_, fun p hp => ?_,
    fun p hp r hr => h.apart p hp.1 r hr.1⟩
  · rw [CompressDevice.numQps, hlcores]
    exact h.attended.le_numQps
  · obtain ⟨status, hpc⟩ := h.attended.idle p (Set.notMem_empty p)
    exact ⟨status, (hmoved.lane_eq (by simp)).1.trans hpc⟩
  · -- the other buffers are not in memzones
    refine (h.hosts_stored p hp).act hs hb horderly (fun buffer hbuffer hmem => ?_) hmoved.separate
    obtain ⟨z, hz⟩ := (h.results q hq).block_memzone _ (mem_blocksOf hbuffer)
    obtain ⟨id, hid⟩ := h.hosts_host p hp
    have hsame : (hosts p).data.block = .memzone z := (List.mem_singleton.mp hmem).symm.trans hz
    rw [hid] at hsame
    cases hsame
  · refine (h.results p hp.1).act hs hb horderly (fun buffer hbuffer hmem => ?_) hmoved.separate
    exact h.apart q hq p hp.1 (fun he => hp.2 he.symm) _ (mem_blocksOf hbuffer) hmem

end Session

end Bitar
