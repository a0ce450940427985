import ArionDp.Cn.Dpnd
import ArionDp.Lib.Runs

/-!
# The direct path assistant

`cn_dp_assistant` sends the requests that the compute node program has queued. The length in a request is
that of a packet from the Ethernet header on, but the datagram starts at the opcode.

* `pushElem`, `cnDpAssistantRound`: the queue, and a round of the assistant;
* `ExactDatagram`: the datagram that a request should be sent as;
* **`direct_path_datagram`**: no request is sent so;
* `cnStep`, **`run_overlong`**: packets and rounds in any order.
-/

namespace ArionDp.Cn

open Wire

/-! ## Queue and datagrams -/

/-- `CN_LOCAL_QUEUE_LEN` -/
def cnLocalQueueLen : ℕ := 1024

/-- `bpf_map_push_elem` with `BPF_EXIST`: a full queue loses its first entry -/
def pushElem (queue : List FlowCtx) (e : FlowCtx) : List FlowCtx :=
  (if queue.length < cnLocalQueueLen then queue else queue.tail) ++ [e]

/-- A datagram: where it lies from the start of `sendbuf`, and its bytes. -/
structure Datagram where
  start : ℕ
  len : ℕ
  bytes : Bytes

/-- `sendto` of `sendbuf.len` bytes from `sendbuf.opcode` on; `beyond` is the memory behind `sendbuf`. -/
def sendto (sendbuf : FlowCtx) (beyond : Bytes) : Datagram where
  start := offsetofOpcode
  len := sendbuf.len.toNat
  bytes := ((sendbuf.data ++ beyond).drop offsetofOpcode).take sendbuf.len.toNat

/-! ## The assistant -/

/-- What a round assigns to `sendbuf` before it looks at the queue. The rest of `sendbuf` and of `opdata` is as it
was. -/
def localEntry (sendbuf : FlowCtx) (opdata : DpEncapOpdata) : FlowCtx :=
  { sendbuf with
    eth := ⟨![0x30, 0x30, 0x3a, 0x30, 0x30, 0x3a], ![0x30, 0x30, 0x3a, 0x30, 0x30, 0x3a], bpfHtons ethPIp⟩
    opcode := 0
    len := BitVec.ofNat 16 (sizeofOpcode + sizeofFlow + sizeofOpdata)
    opdata := { opdata with
      dhip := 0x4a1110ac
      dhmac := ![108, 221, 238, 0, 0, 44]
      dip := 0x2d00007b
      dmac := ![108, 221, 238, 0, 0, 45] }
    flow :=
      { sport := 0, dport := 0, daddr := 0x2d00007b, saddr := 0x2c00007b, protocol := ipprotoTcp
        vni := trnSetVni 888 } }

/-- **A round of the loop** of `cn_dp_assistant`: the datagram that it sends, if any, and the queue and `sendbuf`
afterwards. -/
def cnDpAssistantRound (ckmap : Bool) (queue : List FlowCtx) (sendbuf : FlowCtx) (opdata : DpEncapOpdata)
    (beyond : Bytes) : Option Datagram × List FlowCtx × FlowCtx :=
  let sendbuf := localEntry sendbuf opdata
  if ckmap then
    match queue with
    | [] => (none, [], sendbuf)
    | entry :: queue => (some (sendto entry beyond), queue, entry)
  else (some (sendto sendbuf beyond), queue, sendbuf)

/-- **The datagram for a request**: in `sendbuf`, and made of the opcode, the flow matcher and the operation
data. -/
structure ExactDatagram (e : FlowCtx) (d : Datagram) : Prop where
  inside : d.start + d.len ≤ sizeofFlowCtx
  operation : d.bytes = e.operation

/-- The local entry would be sent as it should be: its length is that of the operation. -/
theorem localEntry_exact (sendbuf : FlowCtx) (opdata : DpEncapOpdata) (beyond : Bytes) :
    ExactDatagram (localEntry sendbuf opdata) (sendto (localEntry sendbuf opdata) beyond) := by
  have hlen : (localEntry sendbuf opdata).len.toNat = sizeofOpcode + sizeofFlow + sizeofOpdata := rfl
  refine ⟨?_, ?_⟩
  · change offsetofOpcode + (localEntry sendbuf opdata).len.toNat ≤ _
    rw [hlen]
    exact le_rfl
  · have hle : offsetofOpcode ≤ (localEntry sendbuf opdata).data.length := by
      rw [FlowCtx.length_data]
      decide
    rw [sendto, List.drop_append_of_le_length hle, FlowCtx.drop_data, hlen,
      ← FlowCtx.length_operation (localEntry sendbuf opdata), List.take_left]

/-- The length in a request is that of its headers and its operation. -/
theorem len_hintRequest (p : Bytes) : (hintRequest p).len.toNat =
    sizeofEthhdr + sizeofIphdr + sizeofUdphdr + sizeofOpcode + sizeofFlow + sizeofOpdata := rfl

/-- **No request is sent as it should be**, whatever lies behind `sendbuf`. -/
theorem not_exactDatagram {p : Bytes} {e : FlowCtx} (h : (transit p).2 = some e) (beyond : Bytes) :
    ¬ ExactDatagram e (sendto e beyond) := by
  obtain ⟨-, rfl⟩ := transit_pushes_iff.1 h
  intro hexact
  have hinside := hexact.inside
  change offsetofOpcode + (hintRequest p).len.toNat ≤ sizeofFlowCtx at hinside
  rw [len_hintRequest] at hinside
  exact absurd hinside (by decide)

/-- **The datagram for a request reaches beyond `sendbuf`.** For every packet for which the compute node program
pushes a request, the round that takes it from the queue sends a datagram, but not the operation of the
request from inside `sendbuf`. -/
theorem direct_path_datagram {p : Bytes} {e : FlowCtx} (h : (transit p).2 = some e) (queue : List FlowCtx)
    (sendbuf : FlowCtx) (opdata : DpEncapOpdata) (beyond : Bytes) :
    ∃ d, (cnDpAssistantRound true (e :: queue) sendbuf opdata beyond).1 = some d ∧ ¬ ExactDatagram e d :=
  ⟨sendto e beyond, rfl, not_exactDatagram h beyond⟩

/-- The sample packet with hints behind it. -/
def sampleHintFrame : Bytes :=
  sampleFrame ipprotoTcp ++ [0x54, 0x53, 0x07, 0x00, 0x00, 0x00, 0x0a, 0x00, 0x00, 0x02,
    0x02, 0x00, 0x0a, 0x00, 0x00, 0x02]

theorem sampleHintFrame_pushes : (transit sampleHintFrame).2 = some (hintRequest sampleHintFrame) :=
  transit_pushes_iff.2 ⟨by decide, rfl⟩

/-- The request for the sample packet. -/
theorem direct_path_datagram_sample : ∃ d, (cnDpAssistantRound true [hintRequest sampleHintFrame]
      (hintRequest sampleHintFrame) (hintRequest sampleHintFrame).opdata []).1 = some d ∧
    ¬ ExactDatagram (hintRequest sampleHintFrame) d :=
  direct_path_datagram sampleHintFrame_pushes [] _ _ []

/-- **42 bytes too many**: the datagram for the sample packet ends at byte 130 of the 88 bytes of `sendbuf`. -/
theorem datagram_too_long : (transit sampleHintFrame).2 = some (hintRequest sampleHintFrame) ∧
    ∃ d, (cnDpAssistantRound true [hintRequest sampleHintFrame] (hintRequest sampleHintFrame)
        (hintRequest sampleHintFrame).opdata []).1 = some d ∧
      d.start + d.len = 130 ∧ sizeofFlowCtx = 88 ∧ ¬ ExactDatagram (hintRequest sampleHintFrame) d := by
  refine ⟨sampleHintFrame_pushes, sendto (hintRequest sampleHintFrame) [], rfl, rfl, rfl, fun h => ?_⟩
  exact absurd (show 130 ≤ 88 from h.inside) (by decide)

/-! ## Runs -/

/-- What happens on a compute node: a packet comes in, or the assistant makes a round. -/
inductive CnAct
  | packet (p : Bytes)
  | round (opdata : DpEncapOpdata) (beyond : Bytes)

/-- The queue, `sendbuf`, and the datagrams so far with the entries that they were sent for. -/
structure CnState where
  queue : List FlowCtx
  sendbuf : FlowCtx
  sent : List (FlowCtx × Datagram)

/-- **One step.** -/
def cnStep : CnAct → CnState → Option CnState
  | .packet p, s => some { s with queue := (transit p).2.elim s.queue (pushElem s.queue) }
  | .round opdata beyond, s =>
    let r := cnDpAssistantRound true s.queue s.sendbuf opdata beyond
    some ⟨r.2.1, r.2.2, s.sent ++ (r.1.map fun d => (r.2.2, d)).toList⟩

/-- The invariant: what is queued was pushed for a packet, and nothing has been sent as it should be. -/
structure Overlong (s : CnState) : Prop where
  queue : ∀ e ∈ s.queue, ∃ p, (transit p).2 = some e
  sent : ∀ x ∈ s.sent, ¬ ExactDatagram x.1 x.2

theorem Overlong.step {a : CnAct} {s t : CnState} (h : Overlong s) (ht : cnStep a s = some t) : Overlong t := by
  cases a with
  | packet p =>
    obtain rfl := Option.some.inj ht
    refine ⟨fun e he => ?_, h.sent⟩
    dsimp only at he
    cases hp : (transit p).2 with
    | none =>
      rw [hp] at he
      exact h.queue e he
    | some e' =>
      rw [hp, Option.elim, pushElem, List.mem_append, List.mem_singleton] at he
      rcases he with he | rfl
      · refine h.queue e ?_
        split_ifs at he
        · exact he
        · exact List.mem_of_mem_tail he
      · exact ⟨p, hp⟩
  | round opdata beyond =>
    obtain rfl := Option.some.inj ht
    cases hq : s.queue with
    | nil =>
      refine ⟨fun e he => absurd he List.not_mem_nil, fun x hx => h.sent x ?_⟩
      simpa [cnDpAssistantRound] using hx
    | cons e queue =>
      have hmem : ∀ e' ∈ e :: queue, ∃ p, (transit p).2 = some e' := hq ▸ h.queue
      refine ⟨fun e' he' => hmem e' (List.mem_cons_of_mem _ he'), fun x hx => ?_⟩
      rcases List.mem_append.1 hx with hx | hx
      · exact h.sent x hx
      · obtain rfl := List.mem_singleton.1 hx
        obtain ⟨p, hp⟩ := hmem e (List.mem_cons_self ..)
        exact not_exactDatagram hp beyond

/-- **In no run is a request sent as it should be.** -/
theorem run_overlong {acts : List CnAct} {sendbuf : FlowCtx} {s : CnState}
    (hrun : Runs.run cnStep acts ⟨[], sendbuf, []⟩ = some s) : Overlong s :=
  Runs.run_inv_all (fun _ _ _ hs ht => hs.step ht) hrun
    ⟨fun _ h => absurd h List.not_mem_nil, fun _ h => absurd h List.not_mem_nil⟩

end ArionDp.Cn
