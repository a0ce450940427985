import ArionDp.Manager.EndpointPush
import ArionDp.Manager.Gateways
import ArionDp.Manager.RpcText

/-!
# What requests do

A request runs through a shell, the option loops of `transit` and its parser of JSON. Those of the manager that are
quoted have the effect of the call that they stand for; no other method reaches the daemon.

* `epsConf_plain`, `itfConf_plain`: the configurations of the manager are read as they were written;
* **`runCmd_updateEp`**, **`runCmd_updateDroplet`**: the entries that a request leaves;
* `TrnRpcCall.Idle`, **`runCmd_idle`**: the methods that change nothing.
-/

namespace ArionDp

open Wire Inet JsonText PyText

/-! ## Configurations of the manager -/

theorem quotable_of_plain {c : Char} (h : Shell.plain c = true) : Quotable c :=
  ⟨ascii_of_plain h, (Shell.plain_spec h).2.2.1⟩

/-- The characters of parts with separators. -/
theorem forall_mem_pyJoin {P : Char → Prop} {sep : Char} (hsep : P sep) {parts : List (List Char)}
    (h : ∀ l ∈ parts, ∀ c ∈ l, P c) : ∀ c ∈ pyJoin sep parts, P c := by
  induction parts with
  | nil => exact List.forall_mem_nil _
  | cons l parts ih =>
    obtain ⟨hl, hparts⟩ := List.forall_mem_cons.1 h
    cases parts with
    | nil => rwa [pyJoin, List.intercalate_singleton]
    | cons k parts =>
      rw [pyJoin, List.intercalate_cons_cons]
      exact List.forall_mem_append.2 ⟨List.forall_mem_append.2 ⟨hl, List.forall_mem_singleton.2 hsep⟩, ih hparts⟩

/-- The numbers of an entry are short. -/
theorem epRpc_plain {e : EpRpc} (h : e.InRange) : Plain 1 e.toJson := by
  have hnum {n : ℤ} {w : ℕ} (hn : 0 ≤ n ∧ n < 2 ^ w) (hw : w ≤ 48) : Plain 0 (.num n) := by
    obtain ⟨hnonneg, hlt⟩ := hn
    lift n to ℕ using hnonneg
    refine Plain.nat (calc
      n < 2 ^ w := by exact_mod_cast hlt
      _ ≤ 2 ^ 48 := Nat.pow_le_pow_right (by decide) hw
      _ ≤ 10 ^ 63 := by norm_num)
  refine Plain.obj ?_
  simp only [List.forall_mem_cons]
  exact ⟨⟨by decide, hnum h.vni (by decide)⟩, ⟨by decide, hnum h.ip (by decide)⟩,
    ⟨by decide, hnum h.hip (by decide)⟩, ⟨by decide, hnum h.mac (by decide)⟩,
    ⟨by decide, hnum h.hmac (by decide)⟩, List.forall_mem_nil _⟩

theorem epsConf_plain {l : List EpRpc} (hr : ∀ e ∈ l, e.InRange) (hl : l.length ≤ tranMaxEpBatchSize) :
    Plain 3 (epsConf l) := by
  refine Plain.obj ?_
  simp only [List.forall_mem_cons]
  refine ⟨⟨by decide, Plain.nat (hl.trans_lt (by norm_num))⟩, ⟨by decide, Plain.arr fun j hj => ?_⟩,
    List.forall_mem_nil _⟩
  obtain ⟨e, he, rfl⟩ := List.mem_map.1 hj
  exact epRpc_plain (hr e he)

theorem dotted_quotable (o : Fin 4 → U8) : ∀ c ∈ dotted o, Quotable c := by
  refine forall_mem_pyJoin (by decide) fun l hl c hc => ?_
  obtain ⟨b, -, rfl⟩ := List.mem_map.1 hl
  have hdigit := Nat.isDigit_of_mem_toDigits (by decide) (by decide) hc
  refine quotable_of_plain ?_
  rw [Shell.plain, Char.isAlphanum, hdigit, Bool.or_true, Bool.true_or]

theorem macText_quotable {m : Mac} {s : Text} (h : MacText m s) : ∀ c ∈ s, Quotable c := by
  obtain ⟨g, rfl, hg⟩ := h
  refine forall_mem_pyJoin (by decide) fun l hl => ?_
  obtain ⟨i, rfl⟩ := List.mem_ofFn.1 hl
  obtain ⟨c, hc, d, hd, heq, -, -⟩ := hg i
  have hdigits : ∀ c ∈ hexDigits, Quotable c := by decide
  rw [heq]
  exact List.forall_mem_cons.2 ⟨hdigits c hc, List.forall_mem_singleton.2 (hdigits d hd)⟩

theorem gwAddr_plain {e : RpcAddr} {g : GwAddr} (h : Denotes e g) : Plain 1 g.toJson := by
  obtain ⟨hmac, o, hip, -⟩ := h
  refine Plain.obj ?_
  simp only [List.forall_mem_cons]
  exact ⟨⟨by decide, Plain.str (hip ▸ dotted_quotable o)⟩, ⟨by decide, Plain.str (macText_quotable hmac)⟩,
    List.forall_mem_nil _⟩

theorem itfConf_plain {itf : Text} (hitf : ∀ c ∈ itf, Quotable c) {es : List RpcAddr} {gws : List GwAddr}
    (h : List.Forall₂ Denotes es gws) (hl : gws.length ≤ tranMaxZgcEntrances) :
    Plain 3 (ItfConf.toJson ⟨some itf, gws.length, gws⟩) := by
  refine Plain.obj ?_
  simp only [List.forall_mem_cons]
  refine ⟨⟨by decide, Plain.str hitf⟩, ⟨by decide, Plain.nat (hl.trans_lt (by norm_num))⟩,
    ⟨by decide, Plain.arr fun j hj => ?_⟩, List.forall_mem_nil _⟩
  obtain ⟨g, hg, rfl⟩ := List.mem_map.1 hj
  obtain ⟨k, hk, rfl⟩ := List.getElem_of_mem hg
  exact gwAddr_plain ((List.forall₂_iff_get.1 h).2 k (h.length_eq ▸ hk) hk)

/-! ## Requests that reach the daemon -/

/-- One node, which answers to every address. -/
def loadedNet : Net Unit Node := ⟨fun _ _ => some (), fun _ => loadedNode⟩

/-- A daemon that refuses the requests about programs. -/
def refusingLoader : Loader :=
  ⟨fun _ x => (false, x), fun _ x => (false, x), fun _ x => (false, x), fun _ x => (false, x)⟩

def nearRpc : TrnRpc := ⟨"10.0.0.7".toList, false⟩

theorem nearRpc_addressed : nearRpc.Addressed := ⟨by decide, by decide⟩

def noFiles : FileSystem := ⟨fun _ => none, rfl⟩

def nearEntry : EpRpc := ⟨7, 0xa000009, 0xc0a80003, 0x20000000009, 0x60000000003⟩

section Run

variable {ι : Type} [DecidableEq ι] (fs : FileSystem) (L : Loader) {net : Net ι Node} {rpc : TrnRpc} {i : ι}

/-- A batch that is accepted. -/
theorem parsedCmd_updateEp {l : List EpRpc} (hr : ∀ e ∈ l, e.InRange) (hl : l.length ≤ tranMaxEpBatchSize) (x : Node) :
    parsedCmd trnCliParseEp Node.updateEp ((epsConf l).map readDouble) x = x.updateEp (l.map EpRpc.endpoint) := by
  have hparse := trnCliParseEp_epsConf JsonNumber.double l hl
  have hread : l.map (EpRpc.trnEp JsonNumber.double) = l.map EpRpc.endpoint :=
    List.map_congr_left fun e he => trnEp_of_inRange JsonNumber.double (hr e he)
  rw [parsedCmd, show readDouble = JsonNumber.double.read from rfl, hparse, hread]

/-- **`update_ep` leaves the endpoints of its batch** on a loaded node, if they fit, and exits with 0. -/
theorem runCmd_updateEp (hrpc : rpc.Addressed) {l : List EpRpc} (hr : ∀ e ∈ l, e.InRange)
    (hl : l.length ≤ tranMaxEpBatchSize) (hi : net.clntCreate (bytesOf rpc.ip) (ascii "udp") = some i)
    {m : EndpointStore} (hm : (net.nodes i).eps = some m)
    (hfits : BoundedMap.FitsIn tranMaxNep (updateEndpoints m.lookup (l.map EpRpc.endpoint))) :
    ∃ m' : EndpointStore, m'.lookup = updateEndpoints m.lookup (l.map EpRpc.endpoint) ∧
      runCmd fs (cmds L) (rpc.command (.updateEp (epsConf l))) net =
        some (0, net.update i { net.nodes i with eps := some m' }) := by
  obtain ⟨m', hrun, hlook⟩ := updateEp_of_fits hfits
  have hplain := (epsConf_plain hr hl).mono (show 3 ≤ cJsonNestingLimit by decide)
  have hfind : (cmds L).find? (fun x => x.1 = ascii "update-ep") =
      some (ascii "update-ep", fun conf x => some (parsedCmd trnCliParseEp Node.updateEp conf x)) := rfl
  have hcmd : (net.nodes i).updateEp (l.map EpRpc.endpoint) = (true, { net.nodes i with eps := some m' }) := by
    rw [Node.updateEp, hm, hrun]
    rfl
  exact ⟨m', hlook, runCmd_reaches (c := .updateEp _) fs hrpc (fun _ _ h => TrnRpcCall.noConfusion h) hplain hfind hi
    (congrArg some ((parsedCmd_updateEp hr hl _).trans hcmd))⟩

end Run

/-- A batch fits into an empty map. -/
theorem fitsIn_empty {batch : List TrnEp} (h : batch.length ≤ tranMaxNep) :
    BoundedMap.FitsIn tranMaxNep (updateEndpoints (BoundedMap.empty : EndpointStore).lookup batch) := by
  have hempty : (BoundedMap.empty : EndpointStore).lookup = fun _ => none := funext BoundedMap.lookup_empty
  rw [hempty, ← puts_entries]
  refine (BoundedMap.fitsIn_none.puts _).mono ?_
  rwa [Nat.zero_add, List.length_map]

theorem runCmd_updateEp_one : ∃ m' : EndpointStore,
    m'.lookup = updateEndpoints (BoundedMap.empty : EndpointStore).lookup ([nearEntry].map EpRpc.endpoint) ∧
      runCmd noFiles (cmds refusingLoader) (nearRpc.command (.updateEp (epsConf [nearEntry]))) loadedNet =
        some (0, loadedNet.update () { loadedNode with eps := some m' }) :=
  runCmd_updateEp (i := ()) noFiles refusingLoader nearRpc_addressed (by decide) (by decide) rfl rfl
    (fitsIn_empty (by decide))

/-! ## Interfaces -/

/-- A configuration of an interface that fits into its buffer stays in the buffers. -/
theorem within_itfConf {itf : Text} (hitf : ∀ c ∈ itf, Quotable c) (hlen : itf.length < tranMaxItfSize)
    {gws : List GwAddr} (hl : gws.length ≤ tranMaxZgcEntrances) :
    Emit.Within CliWrite.Fits
      (dropletWrites ((ItfConf.toJson ⟨some itf, gws.length, gws⟩).map readDouble)) := by
  refine within_dropletWrites.2 fun s hs => ?_
  rw [Json.getObjectItem_map] at hs
  obtain rfl : itf = s := Json.str.inj (Option.some.inj hs)
  refine ⟨(strcpySize_of_ascii fun c hc => (hitf c hc).1).trans_le hlen, ?_⟩
  rintro ⟨n, items, -, -, hitems, -, -, entrance, ip, hover, -⟩
  rw [Json.getObjectItem_map] at hitems
  obtain rfl : Json.mapItems readDouble (gws.map GwAddr.toJson) = items := Json.arr.inj (Option.some.inj hitems)
  have hlt := (List.getElem?_eq_some_iff.1 hover).1
  rw [Json.mapItems_eq, List.length_map, List.length_map] at hlt
  exact absurd hl (not_le.2 hlt)

section Run

variable {ι : Type} [DecidableEq ι] (fs : FileSystem) (L : Loader) {net : Net ι Node} {rpc : TrnRpc} {i : ι}

/-- A droplet that is accepted. -/
theorem writingCmd_updateDroplet {itf : Text} (hitf : ∀ c ∈ itf, Quotable c) (hlen : itf.length < tranMaxItfSize)
    {es : List RpcAddr} {gws : List GwAddr} (h : List.Forall₂ Denotes es gws) (hl : gws.length ≤ tranMaxZgcEntrances)
    (x : Node) : writingCmd dropletWrites (parsedCmd trnCliParseDroplet Node.updateDroplet)
      ((ItfConf.toJson ⟨some itf, gws.length, gws⟩).map readDouble) x =
        some (x.updateDroplet ⟨itf, BitVec.ofNat 32 gws.length, es⟩) := by
  have hparse := trnCliParseDroplet_itfConf JsonNumber.double itf h hl
  have hwithin : ∀ w ∈ (dropletWrites ((ItfConf.toJson ⟨some itf, gws.length, gws⟩).map readDouble)).writes, w.Fits :=
    within_itfConf hitf hlen hl
  rw [writingCmd, if_pos hwithin, parsedCmd, show readDouble = JsonNumber.double.read from rfl, hparse]

/-- **`update_droplet` leaves a record with the addresses of its configuration** on a node that knows the interface,
under an index of the array, and exits with 0. -/
theorem runCmd_updateDroplet (hrpc : rpc.Addressed) {itf : Text} (hitf : ∀ c ∈ itf, Quotable c)
    (hlen : itf.length < tranMaxItfSize) {es : List RpcAddr} {gws : List GwAddr} (h : List.Forall₂ Denotes es gws)
    (hl : gws.length ≤ tranMaxZgcEntrances) (hi : net.clntCreate (bytesOf rpc.ip) (ascii "udp") = some i)
    {eth : TrnIface} (heth : trnGetItfContext (net.nodes i).transitd itf = some eth)
    (hindex : eth.ifaceIndex.toNat < tranMaxItf) {m : IfConfigMap} (hm : (net.nodes i).itfs = some m) :
    ∃ conf, Shows conf gws ∧ conf.ifaceIndex = eth.ifaceIndex ∧ ∃ m' : IfConfigMap,
      m'.lookup = Function.update m.lookup eth.ifaceIndex.toNat (some conf) ∧
        runCmd fs (cmds L) (rpc.command (.updateDroplet (ItfConf.toJson ⟨some itf, gws.length, gws⟩))) net =
          some (0, net.update i { net.nodes i with itfs := some m' }) := by
  let droplet : RpcDroplet := ⟨itf, BitVec.ofNat 32 gws.length, es⟩
  have hentry : (net.nodes i).transitd.entry (net.nodes i).stack droplet =
      some (eth.ifaceIndex.toNat, dropletItf (net.nodes i).stack droplet eth) :=
    entry_eq_some.2 ⟨eth, heth, hindex, rfl⟩
  have hshows := shows_entry h hl hentry
  obtain ⟨m', hrun, hlook⟩ := (updateDroplet_entry _ _ _ m).2 _ hentry
  refine ⟨_, hshows, rfl, m', hlook, ?_⟩
  have hplain := (itfConf_plain hitf h hl).mono (show 3 ≤ cJsonNestingLimit by decide)
  have hfind : (cmds L).find? (fun x => x.1 = ascii "update-droplet") =
      some (ascii "update-droplet", writingCmd dropletWrites (parsedCmd trnCliParseDroplet Node.updateDroplet)) := rfl
  have hcmd : (net.nodes i).updateDroplet droplet = (true, { net.nodes i with itfs := some m' }) := by
    rw [Node.updateDroplet, hm, hrun]
    rfl
  exact runCmd_reaches (c := .updateDroplet _) fs hrpc (fun _ _ h => TrnRpcCall.noConfusion h) hplain hfind hi
    ((writingCmd_updateDroplet hitf hlen h hl _).trans (congrArg some hcmd))

end Run

def nearGateway : GwAddr := ⟨dotted ![10, 0, 0, 1], macDigits ![6, 1, 10, 0, 0, 1]⟩

theorem nearGateway_denotes : Denotes ⟨networkWord ![10, 0, 0, 1], ![6, 1, 10, 0, 0, 1]⟩ nearGateway :=
  ⟨macText_macDigits _, _, rfl, rfl⟩

theorem runCmd_updateDroplet_one : ∃ conf, Shows conf [nearGateway] ∧ conf.ifaceIndex = 2#32 ∧
    ∃ m' : IfConfigMap, m'.lookup = Function.update IfConfigMap.new.lookup 2 (some conf) ∧
      runCmd noFiles (cmds refusingLoader)
        (nearRpc.command (.updateDroplet (ItfConf.toJson ⟨some "eth0".toList, 1, [nearGateway]⟩))) loadedNet =
          some (0, loadedNet.update () { loadedNode with itfs := some m' }) := by
  have heth : trnGetItfContext (loadedNet.nodes ()).transitd "eth0".toList = some ⟨2, 8300, 0, xdpFwd⟩ := loadedNode_itf
  exact runCmd_updateDroplet (i := ()) noFiles refusingLoader nearRpc_addressed (by decide) (by decide)
    (.cons nearGateway_denotes .nil) (by decide) rfl heth (by decide) rfl

/-! ## Programs -/

section Run

variable {ι : Type} [DecidableEq ι] (fs : FileSystem) (L : Loader) {net : Net ι Node} {rpc : TrnRpc} {i : ι}

/-- What the node reads in the configuration of `load_transit_xdp`. -/
theorem trnCliParseXdp_load (itfTenant itfZgc : Text) {iboPort : ℕ} (hport : iboPort < 2 ^ 16) (benchmark : Bool) :
    trnCliParseXdp (((TrnRpcCall.loadTransitXdp itfTenant itfZgc iboPort).jsonconf benchmark).map readDouble) =
      .ok ⟨itfTenant, itfZgc, bpfHtons (BitVec.ofNat 16 iboPort), if benchmark then 0 else 1⟩ := by
  set conf := (TrnRpcCall.loadTransitXdp itfTenant itfZgc iboPort).jsonconf benchmark with hconf
  have hread : readDouble = JsonNumber.double.read := rfl
  have htenant : trnCliParseJsonString (conf.map JsonNumber.double.read) "itf_tenant" = .ok itfTenant := by
    rw [trnCliParseJsonString, Json.getObjectItem_map]
    rfl
  have hzgc : trnCliParseJsonString (conf.map JsonNumber.double.read) "itf_zgc" = .ok itfZgc := by
    rw [trnCliParseJsonString, Json.getObjectItem_map]
    rfl
  have hibo : trnCliParseJsonNumberU16n (conf.map JsonNumber.double.read) "ibo_port" =
      .ok (bpfHtons (BitVec.ofNat 16 iboPort)) := by
    rw [trnCliParseJsonNumberU16n, cliNumber_map JsonNumber.double (n := iboPort) (by omega) rfl]
    exact congrArg Except.ok ((congrArg _ (Json.cUInt_natCast 16 iboPort)).trans (swapLoop16_two _))
  have hmode : parseDebugMode (conf.map JsonNumber.double.read) = .ok (if benchmark then 0 else 1) := by
    rw [parseDebugMode, Json.getObjectItem_map]
    change trnCliParseJsonNumberU32 _ _ = _
    cases benchmark with
    | true =>
      rw [trnCliParseJsonNumberU32, cliNumber_map JsonNumber.double (n := 0) (by decide) rfl]
      exact congrArg Except.ok (Json.cUInt_natCast 32 0)
    | false =>
      rw [trnCliParseJsonNumberU32, cliNumber_map JsonNumber.double (n := 1) (by decide) rfl]
      exact congrArg Except.ok (Json.cUInt_natCast 32 1)
  rw [hread, trnCliParseXdp, htenant, hzgc, hibo, hmode]
  rfl

/-- Names of interfaces that fit into their buffers stay in them. -/
theorem within_load {itfTenant itfZgc : Text} (ht : ∀ c ∈ itfTenant, Quotable c)
    (htlen : itfTenant.length < tranMaxItfSize) (hz : ∀ c ∈ itfZgc, Quotable c)
    (hzlen : itfZgc.length < tranMaxItfSize) (iboPort : ℤ) (benchmark : Bool) :
    Emit.Within CliWrite.Fits
      (xdpWrites (((TrnRpcCall.loadTransitXdp itfTenant itfZgc iboPort).jsonconf benchmark).map readDouble)) := by
  refine within_xdpWrites.2 fun s hs => ?_
  rw [Json.getObjectItem_map] at hs
  obtain rfl : itfTenant = s := Json.str.inj (Option.some.inj hs)
  refine ⟨(strcpySize_of_ascii fun c hc => (ht c hc).1).trans_le htlen, ?_⟩
  rintro ⟨s, hs, hlong⟩
  rw [Json.getObjectItem_map] at hs
  obtain rfl : itfZgc = s := Json.str.inj (Option.some.inj hs)
  rw [strcpySize_of_ascii fun c hc => (hz c hc).1] at hlong
  exact absurd hzlen (not_lt.2 (Nat.le_of_lt_succ hlong))

theorem load_plain {itfTenant itfZgc : Text} (ht : ∀ c ∈ itfTenant, Quotable c) (hz : ∀ c ∈ itfZgc, Quotable c)
    {iboPort : ℕ} (hport : iboPort < 2 ^ 16) (benchmark : Bool) :
    Plain 1 ((TrnRpcCall.loadTransitXdp itfTenant itfZgc iboPort).jsonconf benchmark) := by
  refine Plain.obj ?_
  simp only [List.forall_mem_cons]
  exact ⟨⟨by decide, Plain.str ht⟩, ⟨by decide, Plain.str hz⟩, ⟨by decide, Plain.nat (hport.trans (by norm_num))⟩,
    ⟨by decide, Plain.num (by cases benchmark <;> decide)⟩, List.forall_mem_nil _⟩

/-- **`load_transit_xdp` asks the daemon to load the program** on the interfaces, with the port in network byte
order. -/
theorem runCmd_loadTransitXdp (hrpc : rpc.Addressed) {itfTenant itfZgc : Text} (ht : ∀ c ∈ itfTenant, Quotable c)
    (htlen : itfTenant.length < tranMaxItfSize) (hz : ∀ c ∈ itfZgc, Quotable c) (hzlen : itfZgc.length < tranMaxItfSize)
    {iboPort : ℕ} (hport : iboPort < 2 ^ 16) (hi : net.clntCreate (bytesOf rpc.ip) (ascii "udp") = some i)
    {r : Bool × Node}
    (hr : L.loadTransitXdp ⟨itfTenant, itfZgc, bpfHtons (BitVec.ofNat 16 iboPort), if rpc.benchmark then 0 else 1⟩
      (net.nodes i) = r) :
    runCmd fs (cmds L) (rpc.command (.loadTransitXdp itfTenant itfZgc iboPort)) net =
      some (if r.1 then 0 else 1, net.update i r.2) := by
  have hcmd : writingCmd xdpWrites (parsedCmd trnCliParseXdp L.loadTransitXdp)
      (((TrnRpcCall.loadTransitXdp itfTenant itfZgc iboPort).jsonconf rpc.benchmark).map readDouble) (net.nodes i) =
        some r := by
    have hwithin : ∀ w ∈ (xdpWrites (((TrnRpcCall.loadTransitXdp itfTenant itfZgc iboPort).jsonconf
        rpc.benchmark).map readDouble)).writes, w.Fits := within_load ht htlen hz hzlen iboPort rpc.benchmark
    rw [writingCmd, if_pos hwithin, parsedCmd, trnCliParseXdp_load itfTenant itfZgc hport]
    exact congrArg some hr
  have hfind : (cmds L).find? (fun x => x.1 = ascii "load-transit-xdp") =
      some (ascii "load-transit-xdp", writingCmd xdpWrites (parsedCmd trnCliParseXdp L.loadTransitXdp)) := rfl
  exact runCmd_reaches (c := .loadTransitXdp itfTenant itfZgc iboPort) fs hrpc
    (fun _ _ h => TrnRpcCall.noConfusion h) ((load_plain ht hz hport _).mono (by decide)) hfind hi hcmd

end Run

theorem runCmd_loadTransitXdp_refused : runCmd noFiles (cmds refusingLoader)
    (nearRpc.command (.loadTransitXdp "eth0".toList "eth1".toList 8300)) loadedNet =
      some (1, loadedNet.update () loadedNode) :=
  runCmd_loadTransitXdp (i := ()) noFiles refusingLoader nearRpc_addressed (by decide) (by decide) (by decide)
    (by decide) (by decide) rfl rfl

/-! ## Subcommands that fail -/

theorem exists_viewItems {js : List (Json ℤ)} (h : ∀ j ∈ js, ∃ v, (encode j).view = some v) :
    ∃ vs, CNode.viewItems (encodeItems js) = some vs := by
  induction js with
  | nil => exact ⟨[], rfl⟩
  | cons j js ih =>
    obtain ⟨v, hv⟩ := h j List.mem_cons_self
    obtain ⟨vs, hvs⟩ := ih fun k hk => h k (List.mem_cons_of_mem j hk)
    exact ⟨v :: vs, by rw [encodeItems, CNode.viewItems, hv, hvs]; rfl⟩

theorem exists_viewMembers {fs : List (List Char × Json ℤ)} (h : ∀ f ∈ fs, ∃ v, (encode f.2).view = some v) :
    ∃ vs, CNode.viewMembers (encodeFields fs) = some vs := by
  induction fs with
  | nil => exact ⟨[], rfl⟩
  | cons f fs ih =>
    obtain ⟨v, hv⟩ := h f List.mem_cons_self
    obtain ⟨vs, hvs⟩ := ih fun k hk => h k (List.mem_cons_of_mem f hk)
    exact ⟨(charsOf (cString (f.1.flatMap utf8)), v) :: vs, by rw [encodeFields, CNode.viewMembers, hv, hvs]; rfl⟩

/-- A tree with short numbers is seen by the subcommands. -/
theorem exists_view (j : Json ℤ) : ShortNumbers j → ∃ v, (encode j).view = some v := by
  refine induction (P := fun j => ShortNumbers j → ∃ v, (encode j).view = some v) ?_ ?_ ?_ ?_ ?_ ?_ j
  · exact fun _ => ⟨_, rfl⟩
  · exact fun b _ => ⟨_, rfl⟩
  · exact fun n hshort => ⟨_, view_num (hshort n List.mem_cons_self)⟩
  · exact fun s _ => ⟨_, rfl⟩
  · intro js ih hshort
    obtain ⟨vs, hvs⟩ := exists_viewItems fun k hk => ih k hk fun n hn => hshort n (mem_numbersItems hk hn)
    exact ⟨.arr vs, by rw [encode, CNode.view, hvs]; rfl⟩
  · intro fs ih hshort
    obtain ⟨vs, hvs⟩ := exists_viewMembers fun k hk => ih k hk fun n hn => hshort n (mem_numbersFields hk hn)
    exact ⟨.obj vs, by rw [encode, CNode.view, hvs]; rfl⟩

/-- A configuration that is parsed, and then refused, or is nested too deeply. -/
theorem confSubcmd_fails {σ : Type} (fs : FileSystem) {act : ConfAct σ} {x : σ} (name : CStr) {j : Json ℤ}
    (hj : ShortNumbers j) (hact : ∀ v, (encode j).view = some v → act v x = some (false, x)) :
    confSubcmd fs act [name, dashJ, confArg j] x = some (false, x) := by
  have htext : (confArg j).bytes = bytesOf (dumps j) := rfl
  rw [confSubcmd, trnCliReadConfStr_dashJ fs name (confArg j) rfl, htext]
  by_cases hdepth : (encode j).depth ≤ cJsonNestingLimit
  · obtain ⟨v, hv⟩ := exists_view j hj
    simp only [Option.bind_eq_bind, Option.bind_some, trnCliParseJson, cJsonParse_shallow hj hdepth, hv, hact v hv]
  · obtain ⟨position, hparse⟩ := cJsonParse_deep hj hdepth
    simp only [Option.bind_eq_bind, Option.bind_some, trnCliParseJson, hparse]

/-- A text that is no JSON. -/
theorem confSubcmd_refuses {σ : Type} (fs : FileSystem) {act : ConfAct σ} {x : σ} (name text : CStr) {rest : List CStr}
    (hrest : shortOptions confOstr rest = []) {message : Bytes}
    (hparse : trnCliParseJson text.bytes = some (.error message)) :
    confSubcmd fs act (name :: dashJ :: text :: rest) x = some (false, x) := by
  rw [confSubcmd, trnCliReadConfStr_dashJ fs name text hrest]
  simp only [Option.bind_eq_bind, Option.bind_some, hparse]

theorem findField_eq_none {ν : Type} {key : List Char} {fs : List (List Char × Json ν)}
    (h : ∀ k ∈ fs.map Prod.fst, Json.sameName key k = false) : Json.findField key fs = none := by
  induction fs with
  | nil => rfl
  | cons f fs ih =>
    obtain ⟨hf, hfs⟩ := List.forall_mem_cons.1 h
    rw [Json.findField, hf, if_neg Bool.false_ne_true, ih hfs]

theorem names_viewMembers {fs : List (List Char × Json ℤ)} (hname : ∀ k ∈ fs.map Prod.fst, ∀ c ∈ k, Ascii c)
    {vs : List (List Char × CJson)} (h : CNode.viewMembers (encodeFields fs) = some vs) :
    vs.map Prod.fst = fs.map Prod.fst := by
  induction fs generalizing vs with
  | nil => rw [← Option.some.inj h]; rfl
  | cons f fs ih =>
    obtain ⟨hf, hfs⟩ := List.forall_mem_cons.1 hname
    rw [encodeFields, CNode.viewMembers, charsOf_utf8 hf] at h
    obtain ⟨v, -, h⟩ := Option.bind_eq_some_iff.1 h
    obtain ⟨ws, hws, h⟩ := Option.bind_eq_some_iff.1 h
    rw [← Option.some.inj h, List.map_cons, ih hfs hws, List.map_cons]

/-- A field that an object has not. -/
theorem getObjectItem_view {fs : List (List Char × Json ℤ)} {v : CJson} (h : (encode (.obj fs)).view = some v)
    {key : List Char} (hname : ∀ k ∈ fs.map Prod.fst, (∀ c ∈ k, Ascii c) ∧ Json.sameName key k = false) :
    v.getObjectItem key = none := by
  rw [encode, CNode.view] at h
  obtain ⟨vs, hvs, rfl⟩ := Option.map_eq_some_iff.1 h
  refine findField_eq_none fun k hk => ?_
  rw [names_viewMembers (fun k hk => (hname k hk).1) hvs] at hk
  exact (hname k hk).2

/-! ## A configuration without quotes -/

/-- A string of plain characters is not escaped. -/
theorem quote_of_plain {s : Text} (hs : ∀ c ∈ s, Shell.plain c = true) : quote s = '"' :: (s ++ ['"']) := by
  have hescape : ∀ c ∈ s, escapeChar c = [c] := fun c hc => by
    have hno : ∀ x ∈ escapeDct, Shell.plain x.1 = false := by decide
    have hfind : escapeDct.find? (fun x => x.1 = c) = none := List.find?_eq_none.2 fun x hx heq => by
      have hplain := hno x hx
      rw [of_decide_eq_true heq, hs c hc] at hplain
      exact absurd hplain (by decide)
    rw [escapeChar, hfind]
    exact if_pos (printable_of_plain (hs c hc))
  rw [quote, List.flatMap_congr hescape, List.flatMap_singleton']

/-- An object of two strings and two numbers. -/
theorem dumps_unquoted {k l m n t z : Text} (hk : ∀ c ∈ k, Shell.plain c = true) (hl : ∀ c ∈ l, Shell.plain c = true)
    (hm : ∀ c ∈ m, Shell.plain c = true) (hn : ∀ c ∈ n, Shell.plain c = true) (ht : ∀ c ∈ t, Shell.plain c = true)
    (hz : ∀ c ∈ z, Shell.plain c = true) (a b : ℤ) :
    dumps (.obj [(k, .str t), (l, .str z), (m, .num a), (n, .num b)]) ++ [' '] =
      Shell.partly ['{'] k [':'] (Shell.partly [] t [','] (Shell.partly [] l [':'] (Shell.partly [] z [',']
        (Shell.partly [] m [':'] (pyStr a ++ [','] ++ ' ' :: Shell.partly [] n [':']
          (pyStr b ++ ['}'] ++ ' ' :: [])))))) := by
  simp only [dumps, dumpsFields, quote_of_plain hk, quote_of_plain hl, quote_of_plain hm, quote_of_plain hn,
    quote_of_plain ht, quote_of_plain hz, Shell.partly, List.append_assoc, List.cons_append, List.nil_append,
    List.append_nil]

/-- The words of the configuration of `unload_transit_xdp`. -/
theorem lex_unload {itfTenant itfZgc : Text} (ht : ∀ c ∈ itfTenant, Shell.plain c = true)
    (hz : ∀ c ∈ itfZgc, Shell.plain c = true) (benchmark : Bool) :
    Shell.lex .bare none ((TrnRpcCall.unloadTransitXdp itfTenant itfZgc).confText benchmark) =
      some ["\x7bitf_tenant:".toList, itfTenant ++ [','], "itf_zgc:".toList, itfZgc ++ [','], "ibo_port:".toList,
        "0,".toList, "debug_mode:".toList, pyStr (TrnRpcCall.debugMode benchmark) ++ ['}']] := by
  have hmode : ∀ c ∈ pyStr (TrnRpcCall.debugMode benchmark) ++ ['}'], Shell.plain c = true := by
    cases benchmark <;> decide
  rw [TrnRpcCall.confText, TrnRpcCall.jsonconf,
    dumps_unquoted (by decide) (by decide) (by decide) (by decide) ht hz,
    Shell.lex_partly (by decide) (by decide) (by decide), Shell.lex_partly (by decide) ht (by decide),
    Shell.lex_partly (by decide) (by decide) (by decide), Shell.lex_partly (by decide) hz (by decide),
    Shell.lex_partly (by decide) (by decide) (by decide), Shell.lex_word (by decide) (by decide),
    Shell.lex_partly (by decide) (by decide) (by decide), Shell.lex_word hmode (by simp)]
  rfl

/-- What is behind `-j` on the command line of `unload_transit_xdp` is no JSON. -/
theorem trnCliParseJson_unload : ∃ message, trnCliParseJson (ascii "\x7bitf_tenant:") = some (.error message) :=
  ⟨_, rfl⟩

/-! ## Methods that change nothing -/

namespace TrnRpcCall

/-- The methods other than `load_transit_xdp`, `update_droplet` and `update_ep`. -/
def Idle : TrnRpcCall → Prop
  | loadTransitXdp .. | updateDroplet _ | updateEp _ => False
  | _ => True

/-- The names of interfaces are words without special characters, and the tenant's is no option; in a configuration
that is quoted there is no quote, and no number of more than 63 characters. -/
def Usual (benchmark : Bool) (c : TrnRpcCall) : Prop :=
  match c with
  | unloadTransitXdp itfTenant itfZgc =>
    (∀ d ∈ itfTenant, Shell.plain d = true) ∧ (∀ d ∈ itfZgc, Shell.plain d = true) ∧ itfTenant.head? ≠ some '-'
  | c => '\'' ∉ chars (c.jsonconf benchmark) ∧ ShortNumbers (c.jsonconf benchmark)

end TrnRpcCall

section Idle

variable (ι : Type) [DecidableEq ι] (fs : FileSystem) (L : Loader) {rpc : TrnRpc}

/-- A command whose subcommand fails on every node. -/
def CmdFails (rpc : TrnRpc) (c : TrnRpcCall) : Prop :=
  ∃ argv, (∀ net : Net ι Node, runCmd fs (cmds L) (rpc.command c) net =
      callSubcmd fs (cmds L) (bytesOf rpc.ip) (ascii "udp") c.subcmdArg argv net) ∧
    ∀ d, (cmds L).find? (fun x => x.1 = ascii c.subcmd) = some d → ∀ x, confSubcmd fs d.2 argv x = some (false, x)

/-- A configuration without a VNI names no endpoint. -/
theorem parseEpKey_fails {fields : List (List Char × Json ℤ)}
    (hname : ∀ k ∈ fields.map Prod.fst, (∀ c ∈ k, Ascii c) ∧ Json.sameName "vni".toList k = false) {v : CJson}
    (hv : (encode (.obj fields)).view = some v) (send : EndpointKey → Node → Bool × Node) (x : Node) :
    parsedCmd trnCliParseEpKey send v x = (false, x) := by
  have hmissing : cliNumber v "vni" = .error ("Missing " ++ "vni") := by
    rw [cliNumber, getObjectItem_view hv hname]
  rw [parsedCmd, trnCliParseEpKey, trnCliParseJsonNumberU32, hmissing]
  rfl

/-- A configuration without a size is no batch. -/
theorem parseEp_fails {fields : List (List Char × Json ℤ)}
    (hname : ∀ k ∈ fields.map Prod.fst, (∀ c ∈ k, Ascii c) ∧ Json.sameName "size".toList k = false) {v : CJson}
    (hv : (encode (.obj fields)).view = some v) (send : List TrnEp → Node → Bool × Node) (x : Node) :
    parsedCmd trnCliParseEp send v x = (false, x) := by
  have hmissing : cliNumber v "size" = .error ("Missing " ++ "size") := by
    rw [cliNumber, getObjectItem_view hv hname]
  rw [parsedCmd, trnCliParseEp, trnCliParseJsonNumberU32, hmissing]
  rfl

/-- A word that starts with no dash ends the options. -/
theorem shortOptions_noDash {itf : Text} (hitf : ∀ d ∈ itf, Shell.plain d = true) (hdash : itf.head? ≠ some '-')
    (hascii : ∀ d ∈ itf ++ [','], Ascii d) (rest : List CStr) :
    shortOptions confOstr (argOf (itf ++ [',']) hascii :: rest) = [] := by
  have hget : (argOf (itf ++ [',']) hascii).get 0 ≠ ch '-' := by
    cases itf with
    | nil => exact (by decide : ch ',' ≠ ch '-')
    | cons c itf =>
      intro heq
      have hc := ch_inj (printable_of_plain (hitf c List.mem_cons_self)) (by decide) heq
      exact hdash (congrArg some hc)
  rw [shortOptions, if_pos (.inl hget)]

/-- The shell takes the quotes off the configuration of `unload_transit_xdp`, and its first word is no JSON. -/
theorem cmdFails_unload (hrpc : rpc.Addressed) {itfTenant itfZgc : Text} (ht : ∀ d ∈ itfTenant, Shell.plain d = true)
    (hz : ∀ d ∈ itfZgc, Shell.plain d = true) (hdash : itfTenant.head? ≠ some '-') :
    CmdFails ι fs L rpc (.unloadTransitXdp itfTenant itfZgc) := by
  have hcomma {itf : Text} (hitf : ∀ d ∈ itf, Shell.plain d = true) : ∀ d ∈ itf ++ [','], Ascii d := fun d hd =>
    (List.mem_append.1 hd).elim (fun h => ascii_of_plain (hitf d h)) fun h => List.mem_singleton.1 h ▸ by decide
  have hmode : ∀ d ∈ pyStr (TrnRpcCall.debugMode rpc.benchmark) ++ ['}'], Ascii d := by
    cases rpc.benchmark <;> decide
  have hws : ∀ w ∈ ["-j".toList, "\x7bitf_tenant:".toList, itfTenant ++ [','], "itf_zgc:".toList, itfZgc ++ [','],
      "ibo_port:".toList, "0,".toList, "debug_mode:".toList, pyStr (TrnRpcCall.debugMode rpc.benchmark) ++ ['}']],
      ∀ d ∈ w, Ascii d := by
    simp only [List.forall_mem_cons]
    exact ⟨by decide, by decide, hcomma ht, by decide, hcomma hz, by decide, by decide, by decide, hmode,
      List.forall_mem_nil _⟩
  have hwords := TrnRpc.words_command hrpc (lex_unload ht hz rpc.benchmark)
  refine ⟨_, fun net => runCmd_words fs (cmds L) net hwords (fun d hd => ascii_of_plain (hrpc.plain d hd))
    (fun d hd => ascii_of_plain ((TrnRpcCall.unloadTransitXdp itfTenant itfZgc).subcmd_spec.1 d hd)) hws
    (TrnRpcCall.unloadTransitXdp itfTenant itfZgc).noDash_subcmdArg, fun d hd x => ?_⟩
  obtain ⟨message, hparse⟩ := trnCliParseJson_unload
  exact confSubcmd_refuses fs _ _ (shortOptions_noDash ht hdash (hcomma ht) _) hparse

/-- The subcommands of the other methods fail. -/
theorem cmdFails_idle (hrpc : rpc.Addressed) {c : TrnRpcCall} (hidle : c.Idle) (husual : c.Usual rpc.benchmark) :
    CmdFails ι fs L rpc c := by
  have hquoted (hc : ∀ itfTenant itfZgc, c ≠ .unloadTransitXdp itfTenant itfZgc)
      (hu : '\'' ∉ chars (c.jsonconf rpc.benchmark))
      (hact : ∀ d, (cmds L).find? (fun x => x.1 = ascii c.subcmd) = some d → ∀ x,
        confSubcmd fs d.2 [c.subcmdArg, dashJ, confArg (c.jsonconf rpc.benchmark)] x = some (false, x)) :
      CmdFails ι fs L rpc c :=
    ⟨_, fun net => runCmd_quoted fs L net hrpc ⟨hc, hu⟩, hact⟩
  have hnone (h : (cmds L).find? (fun x => x.1 = ascii c.subcmd) = none) (d : Bytes × ConfAct Node)
      (hd : (cmds L).find? (fun x => x.1 = ascii c.subcmd) = some d) (x : Node) :
      confSubcmd fs d.2 [c.subcmdArg, dashJ, confArg (c.jsonconf rpc.benchmark)] x = some (false, x) :=
    absurd (h.symm.trans hd) (Option.some_ne_none d).symm
  cases c with
  | loadTransitXdp | updateDroplet | updateEp => exact absurd hidle id
  | unloadTransitXdp itfTenant itfZgc => exact cmdFails_unload ι fs L hrpc husual.1 husual.2.1 husual.2.2
  | updateDft | updateChain | updateFtn | getDft | getChain | getFtn | deleteDft | deleteChain =>
    exact hquoted (fun _ _ h => TrnRpcCall.noConfusion h) husual.1 (hnone (by rw [TrnRpcCall.subcmd]; rfl))
  | deleteFtn | deleteSubstrateEp | deleteEp =>
    refine hquoted (fun _ _ h => TrnRpcCall.noConfusion h) husual.1 fun d hd x => ?_
    have hfind : (cmds L).find? (fun x => x.1 = ascii "delete-ep") =
        some (ascii "delete-ep", fun conf x => some (parsedCmd trnCliParseEpKey Node.deleteEp conf x)) := rfl
    obtain rfl := Option.some.inj (hfind.symm.trans hd)
    refine confSubcmd_fails fs _ husual.2 fun v hv => congrArg some (parseEpKey_fails ?_ hv _ x)
    simp only [List.map_cons, List.map_nil]
    decide
  | updateSubstrateEp =>
    refine hquoted (fun _ _ h => TrnRpcCall.noConfusion h) husual.1 fun d hd x => ?_
    have hfind : (cmds L).find? (fun x => x.1 = ascii "update-ep") =
        some (ascii "update-ep", fun conf x => some (parsedCmd trnCliParseEp Node.updateEp conf x)) := rfl
    obtain rfl := Option.some.inj (hfind.symm.trans hd)
    refine confSubcmd_fails fs _ husual.2 fun v hv => congrArg some (parseEp_fails ?_ hv _ x)
    simp only [List.map_cons, List.map_nil]
    decide

variable {ι} (net : Net ι Node)

/-- A command whose subcommand fails changes nothing, and exits with 1. -/
theorem CmdFails.runCmd {c : TrnRpcCall} (h : CmdFails ι fs L rpc c) :
    runCmd fs (cmds L) (rpc.command c) net = some (1, net) := by
  obtain ⟨argv, hrun, hfails⟩ := h
  exact (hrun net).trans (callSubcmd_fails hfails)

/-- **The other methods change nothing**: they exit with 1, whether or not the node answers. -/
theorem runCmd_idle (hrpc : rpc.Addressed) {c : TrnRpcCall} (hidle : c.Idle) (husual : c.Usual rpc.benchmark) :
    runCmd fs (cmds L) (rpc.command c) net = some (1, net) :=
  (cmdFails_idle ι fs L hrpc hidle husual).runCmd fs L net

end Idle

theorem runCmd_idle_deleteEp : runCmd noFiles (cmds refusingLoader)
    (nearRpc.command (.deleteEp (.str ['7']) (.str "10.0.0.9".toList))) loadedNet = some (1, loadedNet) :=
  runCmd_idle noFiles refusingLoader loadedNet nearRpc_addressed trivial ⟨by decide, List.forall_mem_nil _⟩

end ArionDp
