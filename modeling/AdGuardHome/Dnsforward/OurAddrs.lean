import AdGuardHome.Aghnet.AddrPort
import AdGuardHome.Dnsforward.Config

/-!
# The server's own addresses

The upstreams that are the server itself are filtered out by a set of the addresses it listens on.  As soon as one of
these is unspecified, the set only has the addresses of the interfaces with the ports of unspecified ones: a specific
address with another port is not in it, and neither is any address where the server listens without an address on
another port (`ourAddrsSet_exact_iff`).
-/

namespace AdGuardHome.Dnsforward

open AdGuardHome.Net AdGuardHome.Aghnet

/-- The listening addresses of `ServerConfig`, as `AddrPort` returns them: the zero value for a nil pointer, and no
address for one without an IP. -/
structure ListenAddrs where
  tcp : List AddrPort
  udp : List AddrPort

/-- `addrPortSet`.  The sets of the maps are lists. -/
inductive AddrPortSet
  | empty
  | addrs (addrs : List AddrPort)
  | combined (ports : List UInt16) (addrs : List Addr)
deriving DecidableEq

def AddrPortSet.has : AddrPortSet → AddrPort → Bool
  | empty, _ => false
  | addrs as, addrPort => as.contains addrPort
  | combined ports as, addrPort => ports.contains addrPort.port && as.contains addrPort.addr

/-- The address of an interface, from its text. -/
def ifaceAddr (errParse : String → String) (addr : String) : Except String Addr :=
  match parsePrefix addr with
  | some p => .ok p.addr
  | none => .error (errParse addr)

/-- `CollectAllIfacesAddrs`, from the texts of the addresses of the interfaces. -/
def collectAllIfacesAddrs (errParse : String → String) (ifaceAddrs : Except String (List String)) :
    Except String (List Addr) := do
  let addrs ← wrapErr "getting interfaces addresses: " ifaceAddrs
  addrs.mapM (ifaceAddr errParse)

namespace ListenAddrs

def collectListenAddr (acc : List AddrPort × List UInt16) (addrPort : AddrPort) : List AddrPort × List UInt16 :=
  if addrPort = .zero then acc
  else (acc.1 ++ [addrPort], if isUnspecified addrPort.addr then acc.2 ++ [addrPort.port] else acc.2)

def collectDNSAddrs (conf : ListenAddrs) : List AddrPort × List UInt16 :=
  conf.udp.foldl collectListenAddr (conf.tcp.foldl collectListenAddr ([], []))

def ourAddrsSet (conf : ListenAddrs) (errParse : String → String) (ifaceAddrs : Except String (List String)) :
    Except String AddrPortSet :=
  let (addrs, unspecPorts) := conf.collectDNSAddrs
  if addrs = [] then .ok .empty
  else if unspecPorts = [] then .ok (.addrs addrs)
  else do
    let ifaceAddrs ← collectAllIfacesAddrs errParse ifaceAddrs
    return .combined unspecPorts ifaceAddrs

end ListenAddrs

def defaultPlainDNSPort : UInt16 := 53

namespace AddrPortSet

variable (closeUpstream : String → Except String Unit) (urlHost : String → Option String)

def delFunc (set : AddrPortSet) (u : String) : Bool :=
  match parseAddrPortURL urlHost u defaultPlainDNSPort with
  | none => false
  | some addr => set.has addr

/-- `slices.DeleteFunc` with `delFunc`: the upstreams that are left, and the results of closing the others. -/
def deleteFunc (set : AddrPortSet) (ups : List String) : List String × List (Except String Unit) :=
  (ups.filter (!set.delFunc urlHost ·), (ups.filter (set.delFunc urlHost)).map closeUpstream)

def deleteFuncMap (set : AddrPortSet) (m : List (String × List String)) :
    List (String × List String) × List (Except String Unit) :=
  (m.map fun (d, ups) => (d, (set.deleteFunc closeUpstream urlHost ups).1),
    m.flatMap fun (_, ups) => (set.deleteFunc closeUpstream urlHost ups).2)

/-- The tables after `filterOutAddrs`, and its error. -/
def filterOutAddrs (upsConf : UpstreamConfig) (set : AddrPortSet) : UpstreamConfig × Except String Unit :=
  let (upstreams, errs) := set.deleteFunc closeUpstream urlHost upsConf.upstreams
  let (domainReserved, reservedErrs) := set.deleteFuncMap closeUpstream urlHost upsConf.domainReservedUpstreams
  let (specified, specifiedErrs) := set.deleteFuncMap closeUpstream urlHost upsConf.specifiedDomainUpstreams
  (⟨upstreams, domainReserved, specified⟩, joinErrs (errs ++ reservedErrs ++ specifiedErrs))

end AddrPortSet

/-! ## Where the server accepts plain DNS -/

namespace ListenAddrs

variable (conf : ListenAddrs)

/-- The addresses of the listeners. -/
def all : List AddrPort := (conf.tcp ++ conf.udp).filter (· ≠ .zero)

/-- The ports of the listeners whose address is unspecified. -/
def unspecPorts : List UInt16 := (conf.all.filter fun l => isUnspecified l.addr).map (·.port)

/-- The server accepts requests at the specific addresses, and at every address of an interface with the port of a
listener whose address is unspecified or not there. -/
def Accepts (ifaces : List Addr) (addrPort : AddrPort) : Prop :=
  (addrPort ∈ conf.all ∧ isUnspecified addrPort.addr = false) ∨
    addrPort.addr ∈ ifaces ∧ ∃ l ∈ conf.all, (l.addr = .invalid ∨ isUnspecified l.addr = true) ∧ l.port = addrPort.port

instance (ifaces : List Addr) (addrPort : AddrPort) : Decidable (conf.Accepts ifaces addrPort) :=
  inferInstanceAs (Decidable (_ ∨ _))

/-- The set has the addresses with ports where the server accepts plain DNS and no others. -/
def Exact (ifaces : List Addr) (set : AddrPortSet) : Prop :=
  ∀ addrPort : AddrPort, addrPort.addr.isValid = true → (set.has addrPort = true ↔ conf.Accepts ifaces addrPort)

/-- The upstream points back to the server. -/
def pointsBack (urlHost : String → Option String) (ifaces : List Addr) (u : String) : Bool :=
  (parseAddrPortURL urlHost u defaultPlainDNSPort).any fun addr => decide (conf.Accepts ifaces addr)

/-- The tables without the upstreams that point back to the server. -/
def withoutOwn (urlHost : String → Option String) (ifaces : List Addr) (upsConf : UpstreamConfig) : UpstreamConfig where
  upstreams := upsConf.upstreams.filter (!conf.pointsBack urlHost ifaces ·)
  domainReservedUpstreams :=
    upsConf.domainReservedUpstreams.map fun (d, ups) => (d, ups.filter (!conf.pointsBack urlHost ifaces ·))
  specifiedDomainUpstreams :=
    upsConf.specifiedDomainUpstreams.map fun (d, ups) => (d, ups.filter (!conf.pointsBack urlHost ifaces ·))

/-- The listener is in the set: where none is unspecified, it must have an address or its port must be listened on at
every interface; else its port must be that of an unspecified one, and its address that of an interface. -/
def Covered (ifaces : List Addr) (l : AddrPort) : Prop :=
  if l.addr = .invalid then
    ∀ a ∈ ifaces, l.port ∈ conf.unspecPorts ∨ conf.unspecPorts = [] ∧ ⟨a, l.port⟩ ∈ conf.all
  else
    isUnspecified l.addr = true ∨ conf.unspecPorts = [] ∨ l.port ∈ conf.unspecPorts ∧ l.addr ∈ ifaces

/-! ## The set -/

theorem foldl_collectListenAddr (ls : List AddrPort) (acc : List AddrPort × List UInt16) :
    ls.foldl collectListenAddr acc =
      (acc.1 ++ ls.filter (· ≠ .zero),
        acc.2 ++ ((ls.filter (· ≠ .zero)).filter fun l => isUnspecified l.addr).map (·.port)) := by
  induction ls generalizing acc with
  | nil => simp
  | cons l ls ih =>
    rw [List.foldl_cons, ih, collectListenAddr]
    by_cases hzero : l = .zero
    · rw [if_pos hzero, List.filter_cons_of_neg (by simpa using hzero)]
    · rw [if_neg hzero, List.filter_cons_of_pos (by simpa using hzero)]
      cases hunspec : isUnspecified l.addr <;> simp [hunspec]

theorem collectDNSAddrs_eq : conf.collectDNSAddrs = (conf.all, conf.unspecPorts) := by
  unfold collectDNSAddrs all unspecPorts
  rw [foldl_collectListenAddr, foldl_collectListenAddr]
  simp [all, List.filter_append, List.map_append]

variable {conf} {errParse : String → String} {raw : Except String (List String)} {ifaces : List Addr}

/-- What the set has, once the addresses of the interfaces are known. -/
theorem ourAddrsSet_has (conf : ListenAddrs) (hifaces : collectAllIfacesAddrs errParse raw = .ok ifaces) :
    ∃ set, conf.ourAddrsSet errParse raw = .ok set ∧ ∀ addrPort, set.has addrPort = true ↔
      if conf.unspecPorts = [] then addrPort ∈ conf.all
      else addrPort.port ∈ conf.unspecPorts ∧ addrPort.addr ∈ ifaces := by
  unfold ourAddrsSet
  rw [collectDNSAddrs_eq, hifaces]
  simp only
  by_cases hall : conf.all = []
  · have hunspec : conf.unspecPorts = [] := by rw [unspecPorts, hall]; rfl
    refine ⟨.empty, if_pos hall, fun addrPort => ?_⟩
    rw [if_pos hunspec, hall]
    simp [AddrPortSet.has]
  · rw [if_neg hall]
    by_cases hunspec : conf.unspecPorts = []
    · refine ⟨.addrs conf.all, if_pos hunspec, fun addrPort => ?_⟩
      rw [if_pos hunspec]
      simp [AddrPortSet.has]
    · refine ⟨.combined conf.unspecPorts ifaces, if_neg hunspec, fun addrPort => ?_⟩
      rw [if_neg hunspec]
      simp [AddrPortSet.has]

theorem mem_unspecPorts {p : UInt16} :
    p ∈ conf.unspecPorts ↔ ∃ l ∈ conf.all, isUnspecified l.addr = true ∧ l.port = p := by
  simp [unspecPorts, and_assoc]

/-- The addresses of the interfaces are valid. -/
theorem isValid_of_collectAllIfacesAddrs (hifaces : collectAllIfacesAddrs errParse raw = .ok ifaces) :
    ∀ a ∈ ifaces, a.isValid = true := by
  cases raw with
  | error err => cases hifaces
  | ok addrs =>
    replace hifaces : addrs.mapM (ifaceAddr errParse) = .ok ifaces := hifaces
    induction addrs generalizing ifaces with
    | nil =>
      cases hifaces
      exact fun a ha => absurd ha List.not_mem_nil
    | cons addr addrs ih =>
      rw [List.mapM_cons, ifaceAddr] at hifaces
      cases hp : parsePrefix addr with
      | none =>
        rw [hp] at hifaces
        cases hifaces
      | some p =>
        rw [hp] at hifaces
        cases hrest : addrs.mapM (ifaceAddr errParse) with
        | error err =>
          rw [hrest] at hifaces
          cases hifaces
        | ok as =>
          rw [hrest] at hifaces
          cases hifaces
          intro a ha
          rcases List.mem_cons.1 ha with rfl | ha
          · exact (parsedPrefix_of_parsePrefix hp).1
          · exact ih hrest a ha

section Covered

variable {set : AddrPortSet}
  (hset : ∀ addrPort, set.has addrPort = true ↔
    if conf.unspecPorts = [] then addrPort ∈ conf.all
    else addrPort.port ∈ conf.unspecPorts ∧ addrPort.addr ∈ ifaces)

include hset

theorem covered_of_exact (hvalid : ∀ a ∈ ifaces, a.isValid = true) (hexact : conf.Exact ifaces set) :
    ∀ l ∈ conf.all, conf.Covered ifaces l := by
  intro l hl
  unfold Covered
  split
  · rename_i hinvalid
    intro a ha
    have hhas := (hexact ⟨a, l.port⟩ (hvalid a ha)).2 (.inr ⟨ha, l, hl, .inl hinvalid, rfl⟩)
    rw [hset] at hhas
    split at hhas
    · rename_i hnone
      exact .inr ⟨hnone, hhas⟩
    · exact .inl hhas.1
  · rename_i hip
    cases hunspec : isUnspecified l.addr with
    | true => exact .inl rfl
    | false =>
      have hvalidl : l.addr.isValid = true := by
        revert hip
        cases l.addr <;> simp [Addr.isValid]
      have hhas := (hexact l hvalidl).2 (.inl ⟨hl, hunspec⟩)
      rw [hset] at hhas
      split at hhas
      · rename_i hnone
        exact .inr (.inl hnone)
      · exact .inr (.inr hhas)

/-- Without a port of an unspecified address the set has the addresses that are listened on. -/
theorem exact_of_covered_all (hnone : conf.unspecPorts = []) (hcovered : ∀ l ∈ conf.all, conf.Covered ifaces l) :
    conf.Exact ifaces set := by
  have hspecific : ∀ l ∈ conf.all, isUnspecified l.addr = false := by
    intro l hl
    refine Bool.eq_false_iff.2 fun hunspec => ?_
    have hport : l.port ∈ conf.unspecPorts := mem_unspecPorts.2 ⟨l, hl, hunspec, rfl⟩
    rw [hnone] at hport
    cases hport
  intro addrPort _
  rw [hset, if_pos hnone]
  constructor
  · intro hmem
    exact .inl ⟨hmem, hspecific addrPort hmem⟩
  · rintro (⟨hmem, _⟩ | ⟨hiface, l, hl, hinvalid | hunspec, hport⟩)
    · exact hmem
    · have hl' := hcovered l hl
      rw [Covered, if_pos hinvalid] at hl'
      rcases hl' addrPort.addr hiface with hport' | ⟨_, hmem⟩
      · rw [hnone] at hport'
        cases hport'
      · rwa [hport] at hmem
    · rw [hspecific l hl] at hunspec
      cases hunspec

/-- With one the set has the addresses of the interfaces with such ports. -/
theorem exact_of_covered_ports (hsome : conf.unspecPorts ≠ []) (hcovered : ∀ l ∈ conf.all, conf.Covered ifaces l) :
    conf.Exact ifaces set := by
  intro addrPort hvalidp
  rw [hset, if_neg hsome]
  constructor
  · rintro ⟨hport, hiface⟩
    obtain ⟨l, hl, hunspec, hlport⟩ := mem_unspecPorts.1 hport
    exact .inr ⟨hiface, l, hl, .inr hunspec, hlport⟩
  · rintro (⟨hmem, hspecific⟩ | ⟨hiface, l, hl, hinvalid | hunspec, hport⟩)
    · have hp := hcovered addrPort hmem
      have hip : addrPort.addr ≠ .invalid := by
        intro hinvalid
        rw [hinvalid] at hvalidp
        cases hvalidp
      rw [Covered, if_neg hip, hspecific] at hp
      rcases hp with hfalse | hnone | hboth
      · cases hfalse
      · exact absurd hnone hsome
      · exact hboth
    · have hl' := hcovered l hl
      rw [Covered, if_pos hinvalid] at hl'
      rcases hl' addrPort.addr hiface with hport' | ⟨hnone, _⟩
      · exact ⟨hport ▸ hport', hiface⟩
      · exact absurd hnone hsome
    · exact ⟨mem_unspecPorts.2 ⟨l, hl, hunspec, hport⟩, hiface⟩

theorem exact_iff_covered (hvalid : ∀ a ∈ ifaces, a.isValid = true) :
    conf.Exact ifaces set ↔ ∀ l ∈ conf.all, conf.Covered ifaces l := by
  refine ⟨covered_of_exact hset hvalid, fun hcovered => ?_⟩
  by_cases hnone : conf.unspecPorts = []
  · exact exact_of_covered_all hset hnone hcovered
  · exact exact_of_covered_ports hset hnone hcovered

end Covered

/-! ## The upstreams -/

theorem Exact.delFunc_eq {set : AddrPortSet} (h : conf.Exact ifaces set) (urlHost : String → Option String) :
    set.delFunc urlHost = conf.pointsBack urlHost ifaces := by
  funext u
  unfold AddrPortSet.delFunc pointsBack
  cases hparse : parseAddrPortURL urlHost u defaultPlainDNSPort with
  | none => rfl
  | some addr =>
    rw [Option.any_some, Bool.eq_iff_iff, decide_eq_true_iff]
    exact h addr (isValid_of_parseAddrPortURL hparse)

theorem Exact.filterOutAddrs_eq {set : AddrPortSet} (h : conf.Exact ifaces set)
    (closeUpstream : String → Except String Unit) (urlHost : String → Option String) (upsConf : UpstreamConfig) :
    (set.filterOutAddrs closeUpstream urlHost upsConf).1 = conf.withoutOwn urlHost ifaces upsConf := by
  simp only [AddrPortSet.filterOutAddrs, AddrPortSet.deleteFunc, AddrPortSet.deleteFuncMap, h.delFunc_eq, withoutOwn]

/-- The tables that the configuration of the server takes are these, unless an upstream cannot be closed. -/
theorem filterOutAddrs_eq (env : ConfEnv) (urlHost : String → Option String) (upsConf : UpstreamConfig)
    (set : AddrPortSet) :
    filterOutAddrs env upsConf (set.delFunc urlHost) =
      (set.filterOutAddrs env.closeUpstream urlHost upsConf).2.map
        fun _ => (set.filterOutAddrs env.closeUpstream urlHost upsConf).1 := by
  have hclosed : ((upsConf.upstreams ++ upsConf.domainReservedUpstreams.flatMap (·.2) ++
      upsConf.specifiedDomainUpstreams.flatMap (·.2)).filter (set.delFunc urlHost)).map env.closeUpstream
      = (set.deleteFunc env.closeUpstream urlHost upsConf.upstreams).2
        ++ (set.deleteFuncMap env.closeUpstream urlHost upsConf.domainReservedUpstreams).2
        ++ (set.deleteFuncMap env.closeUpstream urlHost upsConf.specifiedDomainUpstreams).2 := by
    simp only [AddrPortSet.deleteFunc, AddrPortSet.deleteFuncMap, List.filter_append, List.map_append,
      List.filter_flatMap, List.map_flatMap]
  unfold filterOutAddrs AddrPortSet.filterOutAddrs
  simp only [hclosed]
  cases joinErrs _ <;> rfl

/-- The set is exact, and with it the upstreams that are filtered out are those that point back to the server, exactly
if every listener is covered. -/
theorem ourAddrsSet_exact_iff (conf : ListenAddrs) (errParse : String → String) (raw : Except String (List String))
    (ifaces : List Addr) (hifaces : collectAllIfacesAddrs errParse raw = .ok ifaces) :
    (∃ set, conf.ourAddrsSet errParse raw = .ok set ∧ conf.Exact ifaces set ∧
      ∀ closeUpstream urlHost upsConf,
        (set.filterOutAddrs closeUpstream urlHost upsConf).1 = conf.withoutOwn urlHost ifaces upsConf) ↔
    ∀ l ∈ conf.all, conf.Covered ifaces l := by
  obtain ⟨set, hok, hset⟩ := ourAddrsSet_has conf hifaces
  have hiff := exact_iff_covered hset (isValid_of_collectAllIfacesAddrs hifaces)
  constructor
  · rintro ⟨set', hok', hexact, _⟩
    rw [hok] at hok'
    cases hok'
    exact hiff.1 hexact
  · intro hcovered
    have hexact := hiff.2 hcovered
    exact ⟨set, hok, hexact, hexact.filterOutAddrs_eq⟩

/-- A listener on every address with the port 53, and a specific one with the port 5353. -/
def mixed : ListenAddrs := ⟨[], [⟨.v4 0, 53⟩, ⟨.v4 0x7f000001, 5353⟩]⟩

/-- The interfaces of a host, with the loopback. -/
def loopback : List Addr := [.v4 0x7f000001, .v4 0xc0a80102]

/-- An upstream that points back to the specific listener stays. -/
theorem mixed_not_exact :
    collectAllIfacesAddrs (fun _ => "") (.ok ["127.0.0.1/8", "192.168.1.2/24"]) = .ok loopback ∧
    mixed.ourAddrsSet (fun _ => "") (.ok ["127.0.0.1/8", "192.168.1.2/24"]) = .ok (.combined [53] loopback) ∧
    ¬ mixed.Exact loopback (.combined [53] loopback) ∧
    ((AddrPortSet.combined [53] loopback).filterOutAddrs (fun _ => .ok ()) (fun _ => none)
      ⟨["127.0.0.1:5353"], [], []⟩).1.upstreams = ["127.0.0.1:5353"] ∧
    (mixed.withoutOwn (fun _ => none) loopback ⟨["127.0.0.1:5353"], [], []⟩).upstreams = [] := by
  refine ⟨by decide, by decide, fun hexact => ?_, by decide, by decide⟩
  have hhas := (hexact ⟨.v4 0x7f000001, 5353⟩ rfl).2 (by decide)
  revert hhas
  decide

theorem ourAddrsSet_exact_iff_mixed :
    (∃ set, mixed.ourAddrsSet (fun _ => "") (.ok ["127.0.0.1/8", "192.168.1.2/24"]) = .ok set ∧
      mixed.Exact loopback set ∧ ∀ closeUpstream urlHost upsConf,
        (set.filterOutAddrs closeUpstream urlHost upsConf).1 = mixed.withoutOwn urlHost loopback upsConf) ↔
    ∀ l ∈ mixed.all, mixed.Covered loopback l :=
  ourAddrsSet_exact_iff mixed _ _ _ (by decide)

end ListenAddrs

end AdGuardHome.Dnsforward
