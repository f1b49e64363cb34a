import CcOciRuntime.Lib.Grouping
import CcOciRuntime.Runtime.Cmdline
import CcOciRuntime.Runtime.Netmask
import CcOciRuntime.Runtime.Routes

/-!
# The discovery of the network

The addresses of the container's network namespace come as one list, in which an interface has an
entry for each of its addresses. The runtime gathers them by interface and derives from the name of
an interface the names of the tap device and the bridge that are to connect it. The loopback device
and entries without an IPv4 or IPv6 address are passed over. `networkDiscover_groups` says what the
interfaces are, for every list of addresses.

Reference: `cc_oci_network_discover` (`src/networking.c:497`).
-/

namespace CcOciRuntime

namespace Runtime

/-! ## Configurations -/

/-- Reference: `struct cc_oci_net_ipv4_cfg` (`src/oci.h:369`). -/
structure CcOciNetIpv4Cfg where
  ipAddress : String
  subnetMask : String
  deriving DecidableEq

/-- Reference: `struct cc_oci_net_ipv6_cfg` (`src/oci.h:378`). -/
structure CcOciNetIpv6Cfg where
  ipv6Address : String
  ipv6Prefix : String
  deriving DecidableEq

/-- Reference: `struct cc_oci_net_if_cfg` (`src/oci.h:344`). -/
structure CcOciNetIfCfg where
  macAddress : String
  ifname : String
  bridge : String
  tapDevice : String
  ipv4Addrs : List CcOciNetIpv4Cfg := []
  ipv6Addrs : List CcOciNetIpv6Cfg := []
  deriving DecidableEq

/-- The whole of the network's configuration. Reference: `struct cc_oci_net_cfg`
(`src/oci.h:309`). -/
structure NetCfg extends CcOciNetCfg where
  dnsIp1 : Option String := none
  dnsIp2 : Option String := none
  interfaces : List CcOciNetIfCfg := []
  routes : List CcOciNetIpv4Route := []

/-! ## The namespace -/

/-- An address with its netmask; `getifaddrs` gives one with each address of the two families. -/
inductive Sockaddr
  | inet (addr netmask : InAddr)
  | inet6 (addr netmask : In6Addr)
  | other (family : Nat)

/-- An entry of the list of addresses. Reference: `struct ifaddrs`. -/
structure Ifaddrs where
  name : String
  addr : Option Sockaddr

/-- The hardware address of a device. -/
structure HwAddr where
  family : Nat
  data : List UInt8

/-- What the C library and the kernel answer: the list of addresses, if it can be made, the hardware
address of a device, if it can be asked for, the printed form of an IPv6 address, the devices and
the reply to the request for routes. -/
structure NetEnv where
  ifaddrs : Option (List Ifaddrs)
  hwaddr : String → Option HwAddr
  inetNtop6 : In6Addr → String
  links : Links
  reply : Option (List (List NlMessage))

/-- The family of an address. -/
def Sockaddr.family : Sockaddr → Family
  | .inet _ _ => .inet
  | .inet6 _ _ => .inet6
  | .other family => .other family

/-! ## The discovery -/

/-- Reference: `ARPHRD_ETHER`. -/
def arphrdEther : Nat := 1

/-- Two digits of a byte. Reference: `"%.2x"`. -/
def hexPair (b : UInt8) : String :=
  .ofList [Nat.digitChar (b.toNat / 16), Nat.digitChar (b.toNat % 16)]

/-- Reference: `get_mac_address` (`src/networking.c:405`). -/
def getMacAddress (env : NetEnv) (ifname : String) : String :=
  match env.hwaddr (copyName ifname) with
  | none => ""
  | some hw =>
    if hw.family ≠ arphrdEther then "" else ":".intercalate ((hw.data.take 6).map hexPair)

/-- A new entry for an interface. Reference: `src/networking.c:546-551`. -/
def newInterface (env : NetEnv) (ifname : String) : CcOciNetIfCfg where
  ifname
  macAddress := getMacAddress env ifname
  tapDevice := "c" ++ ifname
  bridge := "b" ++ ifname

/-- The configuration of an IPv4 address. Reference: `cc_net_get_ip_address`
(`src/networking.c:300`). -/
def ipv4Cfg (addr netmask : InAddr) : CcOciNetIpv4Cfg := ⟨addr.text, netmask.text⟩

/-- The configuration of an IPv6 address. -/
def ipv6Cfg (env : NetEnv) (addr netmask : In6Addr) : CcOciNetIpv6Cfg :=
  ⟨env.inetNtop6 addr, subnetToPrefix .inet6 (some netmask.bytes)⟩

/-- An address is added to an interface. Reference: `src/networking.c:556-579`. -/
def addAddress (env : NetEnv) (cfg : CcOciNetIfCfg) : Sockaddr → CcOciNetIfCfg
  | .inet addr netmask => { cfg with ipv4Addrs := cfg.ipv4Addrs ++ [ipv4Cfg addr netmask] }
  | .inet6 addr netmask => { cfg with ipv6Addrs := cfg.ipv6Addrs ++ [ipv6Cfg env addr netmask] }
  | .other _ => cfg

/-- An entry of the list is looked at: its interface is searched by its name and appended if it is
not there. Reference: `src/networking.c:522-580`. -/
def discoverEntry (env : NetEnv) (interfaces : List CcOciNetIfCfg) (ifa : Ifaddrs) :
    List CcOciNetIfCfg :=
  match ifa.addr with
  | none => interfaces
  | some addr =>
    if ¬ (addr.family = .inet ∨ addr.family = .inet6) then interfaces
    else if ifa.name = "lo" then interfaces
    else
      upsert CcOciNetIfCfg.ifname (newInterface env) ifa.name (fun cfg => addAddress env cfg addr)
        interfaces

/-- The hostname is that of the container. Reference: `cc_oci_network_discover`
(`src/networking.c:497`). -/
def networkDiscover (env : NetEnv) (hostname : Option String) (net : NetCfg) : Option NetCfg :=
  env.ifaddrs.map fun ifaddrs =>
    { net with
      interfaces := ifaddrs.foldl (discoverEntry env) net.interfaces
      hostname := some (hostname.getD "")
      routes := (netlinkGetRoutes env.links env.reply net.routes).2
      dnsIp1 := some ""
      dnsIp2 := some "" }

/-! ## The interfaces -/

/-- The name and the address of an entry, if it is an IPv4 or IPv6 address and not one of the
loopback device. -/
def usable (ifa : Ifaddrs) : Option (String × Sockaddr) :=
  ifa.addr.bind fun addr =>
    if (addr.family = .inet ∨ addr.family = .inet6) ∧ ifa.name ≠ "lo" then some (ifa.name, addr)
    else none

/-- The configuration of an IPv4 address. -/
def ipv4Of : Sockaddr → Option CcOciNetIpv4Cfg
  | .inet addr netmask => some (ipv4Cfg addr netmask)
  | _ => none

/-- The configuration of an IPv6 address. -/
def ipv6Of (env : NetEnv) : Sockaddr → Option CcOciNetIpv6Cfg
  | .inet6 addr netmask => some (ipv6Cfg env addr netmask)
  | _ => none

/-- The addresses of a family are under their own interfaces, in the order of the entries, and each
of them is there once. -/
structure AddressesOf {γ : Type} (f : Sockaddr → Option γ) (addrs : CcOciNetIfCfg → List γ)
    (entries : List (String × Sockaddr)) (interfaces : List CcOciNetIfCfg) : Prop where
  own : ∀ cfg ∈ interfaces,
    addrs cfg = (entries.filter (·.1 = cfg.ifname)).filterMap fun entry => f entry.2
  once : (interfaces.flatMap fun cfg => (addrs cfg).map (cfg.ifname, ·)).Perm
    (entries.filterMap fun entry => (f entry.2).map (entry.1, ·))

/-- The interfaces that a list of addresses stands for: the names other than `lo` with an IPv4 or
IPv6 address, where they first have one, and their addresses. -/
structure Grouped (env : NetEnv) (ifaddrs : List Ifaddrs) (interfaces : List CcOciNetIfCfg) :
    Prop where
  names : ∀ name, name ∈ interfaces.map CcOciNetIfCfg.ifname ↔ name ≠ "lo" ∧
    ∃ ifa ∈ ifaddrs, ifa.name = name ∧
      ∃ addr, ifa.addr = some addr ∧ (addr.family = .inet ∨ addr.family = .inet6)
  distinct : (interfaces.map CcOciNetIfCfg.ifname).Nodup
  order : (interfaces.map CcOciNetIfCfg.ifname).Pairwise fun a b =>
    ((ifaddrs.filterMap usable).map Prod.fst).idxOf a <
      ((ifaddrs.filterMap usable).map Prod.fst).idxOf b
  ipv4 : AddressesOf ipv4Of CcOciNetIfCfg.ipv4Addrs (ifaddrs.filterMap usable) interfaces
  ipv6 : AddressesOf (ipv6Of env) CcOciNetIfCfg.ipv6Addrs (ifaddrs.filterMap usable) interfaces

section
variable {env : NetEnv} {ifaddrs : List Ifaddrs} {interfaces : List CcOciNetIfCfg}
  {entries : List (String × Sockaddr)} {cfg : CcOciNetIfCfg}

/-- The entries that are used. -/
theorem usable_eq_some {ifa : Ifaddrs} {entry : String × Sockaddr} :
    usable ifa = some entry ↔ ifa.name = entry.1 ∧ ifa.addr = some entry.2 ∧ entry.1 ≠ "lo" ∧
      (entry.2.family = .inet ∨ entry.2.family = .inet6) := by
  rw [usable, Option.bind_eq_some_iff]
  constructor
  · rintro ⟨addr, haddr, h⟩
    split_ifs at h with hc
    obtain rfl := Option.some.inj h
    exact ⟨rfl, haddr, hc.2, hc.1⟩
  · rintro ⟨hname, haddr, hlo, hfamily⟩
    refine ⟨entry.2, haddr, ?_⟩
    rw [hname, if_pos ⟨hfamily, hlo⟩]

/-- An entry is grouped under its name. -/
theorem discoverEntry_eq (interfaces : List CcOciNetIfCfg) (ifa : Ifaddrs) :
    discoverEntry env interfaces ifa = (usable ifa).elim interfaces fun entry =>
      upsert CcOciNetIfCfg.ifname (newInterface env) entry.1
        (fun cfg => addAddress env cfg entry.2) interfaces := by
  obtain ⟨name, addr⟩ := ifa
  cases addr with
  | none => rfl
  | some addr =>
    simp only [discoverEntry, usable, Option.bind_some]
    by_cases hfamily : addr.family = .inet ∨ addr.family = .inet6
    · by_cases hname : name = "lo"
      · rw [if_neg (not_not.2 hfamily), if_pos hname, if_neg fun h => h.2 hname]
        rfl
      · rw [if_neg (not_not.2 hfamily), if_neg hname, if_pos ⟨hfamily, hname⟩]
        rfl
    · rw [if_pos hfamily, if_neg fun h => hfamily h.1]
      rfl

/-- The loop gathers the entries that are looked at. -/
theorem foldl_discoverEntry (ifaddrs : List Ifaddrs) :
    ifaddrs.foldl (discoverEntry env) [] =
      gather CcOciNetIfCfg.ifname (newInterface env) Prod.fst
        (fun entry cfg => addAddress env cfg entry.2) (ifaddrs.filterMap usable) := by
  rw [gather]
  generalize ([] : List CcOciNetIfCfg) = interfaces
  induction ifaddrs generalizing interfaces with
  | nil => rfl
  | cons ifa ifaddrs ih =>
    rw [List.foldl_cons, ih, discoverEntry_eq, List.filterMap_cons]
    cases usable ifa with
    | none => rfl
    | some entry => rfl

@[simp] theorem ifname_addAddress (addr : Sockaddr) :
    (addAddress env cfg addr).ifname = cfg.ifname := by
  cases addr <;> rfl

/-- The addresses that some entries leave in an interface. -/
theorem foldl_addAddress (entries : List (String × Sockaddr)) (cfg : CcOciNetIfCfg) :
    entries.foldl (fun cfg entry => addAddress env cfg entry.2) cfg =
      { cfg with
        ipv4Addrs := cfg.ipv4Addrs ++ entries.filterMap fun entry => ipv4Of entry.2
        ipv6Addrs := cfg.ipv6Addrs ++ entries.filterMap fun entry => ipv6Of env entry.2 } := by
  induction entries generalizing cfg with
  | nil => rw [List.foldl_nil, List.filterMap_nil, List.filterMap_nil, List.append_nil,
      List.append_nil]
  | cons entry entries ih =>
    obtain ⟨name, addr⟩ := entry
    rw [List.foldl_cons, ih, List.filterMap_cons, List.filterMap_cons]
    cases addr <;> simp [addAddress, ipv4Of, ipv6Of]

/-- An interface is what its own entries make of a new one. -/
theorem eq_of_mem_foldl (h : cfg ∈ ifaddrs.foldl (discoverEntry env) []) :
    cfg = { newInterface env cfg.ifname with
      ipv4Addrs := ((ifaddrs.filterMap usable).filter (·.1 = cfg.ifname)).filterMap
        fun entry => ipv4Of entry.2
      ipv6Addrs := ((ifaddrs.filterMap usable).filter (·.1 = cfg.ifname)).filterMap
        fun entry => ipv6Of env entry.2 } := by
  rw [foldl_discoverEntry] at h
  have hgroup := eq_foldl_of_mem_gather (fun _ => rfl) (fun _ _ => ifname_addAddress _) h
  rw [foldl_addAddress] at hgroup
  exact hgroup

/-- Addresses that are under their own interfaces are there once. -/
theorem AddressesOf.of_own {γ : Type} {f : Sockaddr → Option γ} {addrs : CcOciNetIfCfg → List γ}
    (hfirst : FirstAppearance (entries.map Prod.fst) (interfaces.map CcOciNetIfCfg.ifname))
    (own : ∀ cfg ∈ interfaces,
      addrs cfg = (entries.filter (·.1 = cfg.ifname)).filterMap fun entry => f entry.2) :
    AddressesOf f addrs entries interfaces := by
  refine ⟨own, ?_⟩
  have hcover : ∀ entry ∈ entries, entry.1 ∈ interfaces.map CcOciNetIfCfg.ifname :=
    fun entry hentry => (hfirst.mem_iff _).2 (List.mem_map_of_mem hentry)
  have hflat : (interfaces.flatMap fun cfg => (addrs cfg).map (cfg.ifname, ·)) =
      ((interfaces.map CcOciNetIfCfg.ifname).flatMap fun name =>
        entries.filter (·.1 = name)).filterMap fun entry => (f entry.2).map (entry.1, ·) := by
    rw [List.filterMap_flatMap, List.flatMap_map]
    refine List.flatMap_congr fun cfg hcfg => ?_
    rw [own cfg hcfg, List.map_filterMap]
    refine List.filterMap_congr fun entry hentry => ?_
    have hname : entry.1 = cfg.ifname := of_decide_eq_true (List.mem_filter.1 hentry).2
    rw [hname]
  rw [hflat]
  exact (perm_flatMap_filter hfirst.nodup hcover).filterMap _

/-- **The interfaces are those of the list of addresses**, for every list. -/
theorem networkDiscover_groups (env : NetEnv) (hostname : Option String) (net : NetCfg)
    (ifaddrs : List Ifaddrs) (hifaddrs : env.ifaddrs = some ifaddrs)
    (hempty : net.interfaces = []) :
    ∃ net', networkDiscover env hostname net = some net' ∧
      Grouped env ifaddrs net'.interfaces := by
  have hfirst : FirstAppearance ((ifaddrs.filterMap usable).map Prod.fst)
      ((ifaddrs.foldl (discoverEntry env) []).map CcOciNetIfCfg.ifname) := by
    rw [foldl_discoverEntry]
    exact firstAppearance_gather (fun _ => rfl) (fun _ _ => ifname_addAddress _) _
  refine ⟨_, by rw [networkDiscover, hifaddrs, Option.map_some], ?_⟩
  dsimp only
  rw [hempty]
  refine ⟨fun name => ?_, hfirst.nodup, hfirst.ordered, .of_own hfirst fun cfg hcfg => ?_,
    .of_own hfirst fun cfg hcfg => ?_⟩
  · rw [hfirst.mem_iff, List.mem_map]
    constructor
    · rintro ⟨entry, hentry, rfl⟩
      obtain ⟨ifa, hifa, hsome⟩ := List.mem_filterMap.1 hentry
      obtain ⟨hname, haddr, hlo, hfamily⟩ := usable_eq_some.1 hsome
      exact ⟨hlo, ifa, hifa, hname, entry.2, haddr, hfamily⟩
    · rintro ⟨hlo, ifa, hifa, rfl, addr, haddr, hfamily⟩
      exact ⟨(ifa.name, addr), List.mem_filterMap.2 ⟨ifa, hifa,
        usable_eq_some.2 ⟨rfl, haddr, hlo, hfamily⟩⟩, rfl⟩
  · exact congrArg CcOciNetIfCfg.ipv4Addrs (eq_of_mem_foldl hcfg)
  · exact congrArg CcOciNetIfCfg.ipv6Addrs (eq_of_mem_foldl hcfg)

end

/-- A list with two interfaces. The first entry of one of them has no address of its own, and the
entries of the other are not next to each other. -/
def sampleIfaddrs : List Ifaddrs :=
  [⟨"lo", some (.inet ⟨127, 0, 0, 1⟩ ⟨255, 0, 0, 0⟩)⟩, ⟨"eth1", some (.other 17)⟩,
    ⟨"eth0", some (.inet ⟨10, 0, 0, 2⟩ ⟨255, 255, 255, 0⟩)⟩, ⟨"tun0", none⟩,
    ⟨"eth1", some (.inet ⟨10, 1, 0, 2⟩ ⟨255, 255, 0, 0⟩)⟩,
    ⟨"eth0", some (.inet6 ⟨List.replicate 16 1, rfl⟩ ⟨List.replicate 16 255, rfl⟩)⟩,
    ⟨"eth0", some (.inet ⟨10, 0, 0, 3⟩ ⟨255, 255, 255, 0⟩)⟩]

/-- A namespace with these addresses. -/
def sampleNetEnv : NetEnv where
  ifaddrs := some sampleIfaddrs
  hwaddr := fun _ => none
  inetNtop6 := fun addr => ":".intercalate (addr.bytes.map hexPair)
  links := sampleLinks
  reply := none

/-- Two interfaces with three addresses. -/
theorem networkDiscover_groups_two :
    (networkDiscover sampleNetEnv none {}).map
        (fun net => net.interfaces.map fun cfg => (cfg.ifname, cfg.ipv4Addrs.map (·.ipAddress))) =
      some [("eth0", ["10.0.0.2", "10.0.0.3"]), ("eth1", ["10.1.0.2"])] ∧
    ∃ net, networkDiscover sampleNetEnv none {} = some net ∧
      Grouped sampleNetEnv sampleIfaddrs net.interfaces :=
  ⟨by decide +kernel, networkDiscover_groups sampleNetEnv none {} sampleIfaddrs rfl rfl⟩

/-- An entry without an IPv4 or IPv6 address does not count for the order: the first entry of `eth1`
is in front of those of `eth0`, and its interface is behind. -/
theorem networkDiscover_order :
    (sampleIfaddrs.map Ifaddrs.name).idxOf "eth1" < (sampleIfaddrs.map Ifaddrs.name).idxOf "eth0" ∧
    (networkDiscover sampleNetEnv none {}).map
        (fun net => net.interfaces.map CcOciNetIfCfg.ifname) = some ["eth0", "eth1"] := by
  decide +kernel

end Runtime

end CcOciRuntime
