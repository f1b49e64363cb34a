import CcOciRuntime.Lib.Utf8
import Mathlib.Data.List.Nodup
import Mathlib.Tactic.SplitIfs

/-!
# The network devices of a namespace

The kernel keeps the devices of a network namespace in a table, in which a device has an index and a
name of its own. `Links` carries that, and that every name is one the kernel gives out. The requests
of the runtime find a device by its name or by its index; a new device gets a new index. What else
can make the kernel refuse a request, such as missing rights, is left out.

Reference: `cc_oci_tap_create` (`src/networking.c:170`), `src/netlink.c:164-320`.
-/

namespace CcOciRuntime

namespace Runtime

/-! ## Names -/

/-- Reference: `IFNAMSIZ`, with the terminating zero. -/
def ifNameSize : Nat := 16

/-- The bytes of a name. -/
def nameBytes (name : String) : List UInt8 := utf8 name.toList

/-- The bytes that no name of a device has: the zero, the blanks, `%`, `/` and `:`. -/
def refusedBytes : List UInt8 := [0, 9, 10, 11, 12, 13, 32, 160, 37, 47, 58]

/-- A name that the kernel gives to a device. -/
structure ValidName (name : String) : Prop where
  not_empty : nameBytes name ≠ []
  fits : (nameBytes name).length < ifNameSize
  not_dots : name ≠ "." ∧ name ≠ ".."
  accepted : ∀ b ∈ nameBytes name, b ∉ refusedBytes

theorem validName_iff {name : String} : ValidName name ↔ nameBytes name ≠ [] ∧
    (nameBytes name).length < ifNameSize ∧ (name ≠ "." ∧ name ≠ "..") ∧
      ∀ b ∈ nameBytes name, b ∉ refusedBytes :=
  ⟨fun h => ⟨h.not_empty, h.fits, h.not_dots, h.accepted⟩, fun h => ⟨h.1, h.2.1, h.2.2.1, h.2.2.2⟩⟩

-- over the bytes of the name, not over all bytes
instance (name : String) : Decidable (ValidName name) :=
  haveI : Decidable (∀ b ∈ nameBytes name, b ∉ refusedBytes) := List.decidableBAll _ _
  decidable_of_iff' _ validName_iff

/-- The characters of a text as long as they fit. -/
def fillName (text : String) : List Char → String
  | [] => text
  | c :: cs =>
    if (nameBytes (text.push c)).length < ifNameSize then fillName (text.push c) cs else text

/-- Copying a text into a buffer for a name, cut at the last whole character that fits:
`g_strlcpy` with `IFNAMSIZ`. -/
def copyName (text : String) : String :=
  if (nameBytes text).length < ifNameSize then text else fillName "" text.toList

/-! ## The table -/

/-- What a device is, as far as the requests can tell. A tap device may be open already. -/
inductive LinkKind
  | tap (busy : Bool)
  | bridge
  | other
  deriving DecidableEq

/-- A device. Its master is the index of its bridge, zero if there is none. -/
structure Link where
  index : Nat
  name : String
  kind : LinkKind := .other
  address : List UInt8 := []
  master : Nat := 0
  up : Bool := false
  deriving DecidableEq

/-- The devices of a namespace. -/
structure Links where
  list : List Link
  names_nodup : (list.map Link.name).Nodup
  indices_nodup : (list.map Link.index).Nodup
  positive : ∀ l ∈ list, 0 < l.index
  valid : ∀ l ∈ list, ValidName l.name

namespace Links

/-- The names of the devices. -/
def names (t : Links) : List String := t.list.map Link.name

/-- The indices of the devices. -/
def indices (t : Links) : List Nat := t.list.map Link.index

/-- The device with a name. -/
def named (t : Links) (name : String) : Option Link := t.list.find? (·.name = name)

/-- An index that no device has. -/
def newIndex (t : Links) : Nat := t.indices.foldr max 0 + 1

theorem le_foldr_max {is : List Nat} {i : Nat} (h : i ∈ is) : i ≤ is.foldr max 0 := by
  induction is with
  | nil => exact absurd h List.not_mem_nil
  | cons j is ih =>
    obtain rfl | h := List.mem_cons.1 h
    · exact Nat.le_max_left _ _
    · exact Nat.le_trans (ih h) (Nat.le_max_right _ _)

theorem lt_newIndex (t : Links) {i : Nat} (h : i ∈ t.indices) : i < t.newIndex :=
  Nat.lt_succ_of_le (le_foldr_max h)

/-- A table with one more device. -/
def add (t : Links) (name : String) (kind : LinkKind) (hvalid : ValidName name)
    (hnew : name ∉ t.names) : Links where
  list := t.list ++ [{ index := t.newIndex, name, kind }]
  names_nodup := by
    rw [List.map_append, List.nodup_append]
    refine ⟨t.names_nodup, List.nodup_singleton _, fun a ha b hb heq => hnew ?_⟩
    rwa [heq, List.mem_singleton.1 hb] at ha
  indices_nodup := by
    rw [List.map_append, List.nodup_append]
    refine ⟨t.indices_nodup, List.nodup_singleton _, fun a ha b hb => ?_⟩
    rw [List.mem_singleton.1 hb]
    exact Nat.ne_of_lt (t.lt_newIndex ha)
  positive := by
    simp only [List.mem_append, List.mem_singleton]
    rintro l (hl | rfl)
    · exact t.positive l hl
    · exact Nat.succ_pos _
  valid := by
    simp only [List.mem_append, List.mem_singleton]
    rintro l (hl | rfl)
    · exact t.valid l hl
    · exact hvalid

/-- A table with some devices changed, which keep their names and indices. -/
def modify (t : Links) (f : Link → Link) (hname : ∀ l, (f l).name = l.name)
    (hindex : ∀ l, (f l).index = l.index) : Links where
  list := t.list.map f
  names_nodup := by
    have hsame : Link.name ∘ f = Link.name := funext hname
    rw [List.map_map, hsame]
    exact t.names_nodup
  indices_nodup := by
    have hsame : Link.index ∘ f = Link.index := funext hindex
    rw [List.map_map, hsame]
    exact t.indices_nodup
  positive := List.forall_mem_map.2 fun l hl => hindex l ▸ t.positive l hl
  valid := List.forall_mem_map.2 fun l hl => hname l ▸ t.valid l hl

/-- A new device. -/
def create (t : Links) (name : String) (kind : LinkKind) : Option Links :=
  if h : ValidName name ∧ name ∉ t.names then some (t.add name kind h.1 h.2) else none

/-- A tap device is opened, and made if there is none of the name. Reference: `TUNSETIFF`. -/
def tunSetIff (t : Links) (name : String) : Option Links :=
  match t.named name with
  | some l => if l.kind = .tap false then some t else none
  | none => t.create name (.tap false)

end Links

/-! ## Requests -/

/-- Reference: `cc_oci_tap_create` (`src/networking.c:170`). -/
def tapCreate (t : Links) (tap : String) : Option Links := t.tunSetIff (copyName tap)

/-- Reference: `netlink_link_add_bridge` (`src/netlink.c:210`). -/
def netlinkLinkAddBridge (t : Links) (name : String) : Option Links := t.create name .bridge

/-- Reference: `if_nametoindex`. -/
def ifNametoindex (t : Links) (name : String) : Nat := (t.named name).elim 0 Link.index

/-- Reference: `if_indextoname`. -/
def ifIndextoname (t : Links) (index : Nat) : Option String :=
  (t.list.find? (·.index = index)).map Link.name

/-- A change of the devices with a property, if there is one. -/
def Links.change (t : Links) (p : Link → Prop) [DecidablePred p] (f : Link → Link)
    (hname : ∀ l, (f l).name = l.name) (hindex : ∀ l, (f l).index = l.index) : Option Links :=
  if ∃ l ∈ t.list, p l then
    some (t.modify (fun l => if p l then f l else l)
      (fun l => by split_ifs; exacts [hname l, rfl]) fun l => by split_ifs; exacts [hindex l, rfl])
  else none

/-- Reference: `netlink_link_set_addr` (`src/netlink.c:286`). -/
def netlinkLinkSetAddr (t : Links) (interface : String) (hwaddr : List UInt8) : Option Links :=
  if hwaddr = [] then none
  else t.change (·.name = interface) (fun l => { l with address := hwaddr }) (fun _ => rfl)
    fun _ => rfl

/-- Reference: `netlink_link_set_master` (`src/netlink.c:249`). -/
def netlinkLinkSetMaster (t : Links) (dev master : Nat) : Option Links :=
  if master = 0 ∨ master ∈ t.indices then
    t.change (·.index = dev) (fun l => { l with master }) (fun _ => rfl) fun _ => rfl
  else none

/-- Reference: `netlink_link_enable` (`src/netlink.c:165`). -/
def netlinkLinkEnable (t : Links) (interface : String) (enable : Bool) : Option Links :=
  t.change (·.name = interface) (fun l => { l with up := enable }) (fun _ => rfl) fun _ => rfl

/-! ## What the requests do -/

/-- What tells a device from the others, and what it is. -/
def Link.key (l : Link) : Nat × String × LinkKind := (l.index, l.name, l.kind)

/-- What the requests never change of the devices. -/
def Links.keys (t : Links) : List (Nat × String × LinkKind) := t.list.map Link.key

section
variable {t t' : Links} {name : String} {kind : LinkKind} {index : Nat}

theorem Links.names_eq (t : Links) : t.names = t.keys.map (·.2.1) := by
  rw [names, keys, List.map_map]
  rfl

theorem Links.indices_eq (t : Links) : t.indices = t.keys.map (·.1) := by
  rw [indices, keys, List.map_map]
  rfl

/-- A name belongs to an interface. -/
theorem Links.exists_key (h : name ∈ t.names) : ∃ index kind, (index, name, kind) ∈ t.keys := by
  obtain ⟨l, hl, rfl⟩ := List.mem_map.1 h
  exact ⟨l.index, l.kind, List.mem_map_of_mem hl⟩

theorem Links.mem_names_of_key (h : (index, name, kind) ∈ t.keys) : name ∈ t.names := by
  rw [names_eq]
  exact List.mem_map.2 ⟨_, h, rfl⟩

theorem Links.mem_indices_of_key (h : (index, name, kind) ∈ t.keys) : index ∈ t.indices := by
  rw [indices_eq]
  exact List.mem_map.2 ⟨_, h, rfl⟩

theorem Links.named_eq_none (h : name ∉ t.names) : t.named name = none := by
  refine List.find?_eq_none.2 fun l hl heq => h ?_
  rw [← of_decide_eq_true heq]
  exact List.mem_map_of_mem hl

/-- A name is looked up to the device that has it. -/
theorem ifNametoindex_of_key (h : (index, name, kind) ∈ t.keys) : ifNametoindex t name = index := by
  obtain ⟨l, hl, hkey⟩ := List.mem_map.1 h
  simp only [Link.key, Prod.mk.injEq] at hkey
  obtain ⟨rfl, rfl, rfl⟩ := hkey
  rw [ifNametoindex, Links.named]
  cases hfind : t.list.find? (·.name = l.name) with
  | none => exact absurd (decide_eq_true rfl) (List.find?_eq_none.1 hfind l hl)
  | some l' =>
    have hname : l'.name = l.name := by simpa using List.find?_some hfind
    have hsame := List.inj_on_of_nodup_map t.names_nodup (List.mem_of_find?_eq_some hfind) hl hname
    rw [hsame, Option.elim_some]

/-- An index is looked up to the device that has it. -/
theorem ifIndextoname_of_mem {l : Link} (hl : l ∈ t.list) :
    ifIndextoname t l.index = some l.name := by
  rw [ifIndextoname]
  cases hfind : t.list.find? (·.index = l.index) with
  | none => exact absurd (decide_eq_true rfl) (List.find?_eq_none.1 hfind l hl)
  | some l' =>
    have hindex : l'.index = l.index := by simpa using List.find?_some hfind
    have hsame :=
      List.inj_on_of_nodup_map t.indices_nodup (List.mem_of_find?_eq_some hfind) hl hindex
    rw [hsame, Option.map_some]

/-- The name of a device tells which it is. -/
theorem ifIndextoname_inj {i j : Nat} (hi : i ∈ t.indices) (hj : j ∈ t.indices) :
    ifIndextoname t i = ifIndextoname t j ↔ i = j := by
  refine ⟨fun h => ?_, congrArg _⟩
  obtain ⟨l, hl, rfl⟩ := List.mem_map.1 hi
  obtain ⟨l', hl', rfl⟩ := List.mem_map.1 hj
  rw [ifIndextoname_of_mem hl, ifIndextoname_of_mem hl'] at h
  exact congrArg Link.index (List.inj_on_of_nodup_map t.names_nodup hl hl' (Option.some.inj h))

/-- A lookup depends only on what the requests do not change. -/
theorem ifNametoindex_congr (h : t'.keys = t.keys) (name : String) :
    ifNametoindex t' name = ifNametoindex t name := by
  by_cases hname : name ∈ t.names
  · obtain ⟨index, kind, hkey⟩ := Links.exists_key hname
    rw [ifNametoindex_of_key hkey, ifNametoindex_of_key (h ▸ hkey)]
  · have hname' : name ∉ t'.names := by rwa [Links.names_eq, h, ← Links.names_eq]
    rw [ifNametoindex, ifNametoindex, Links.named_eq_none hname, Links.named_eq_none hname']

/-- A new interface comes last. -/
theorem Links.create_eq_some : t.create name kind = some t' → ValidName name ∧ name ∉ t.names ∧
    t'.keys = t.keys ++ [(t.newIndex, name, kind)] := by
  rw [create]
  split_ifs with hc
  · rintro ⟨rfl⟩
    exact ⟨hc.1, hc.2, List.map_append⟩
  · exact False.elim

theorem Links.exists_create (hvalid : ValidName name) (hnew : name ∉ t.names) (kind : LinkKind) :
    ∃ t', t.create name kind = some t' := by
  rw [create, dif_pos ⟨hvalid, hnew⟩]
  exact ⟨_, rfl⟩

theorem copyName_of_valid (h : ValidName name) : copyName name = name := if_pos h.fits

/-- A tap device whose name is new is made. -/
theorem tapCreate_of_new (hvalid : ValidName name) (hnew : name ∉ t.names) :
    tapCreate t name = t.create name (.tap false) := by
  rw [tapCreate, copyName_of_valid hvalid, Links.tunSetIff, Links.named_eq_none hnew]

/-- At most one device is made for a tap device. -/
theorem keys_tapCreate (h : tapCreate t name = some t') : t.keys <+: t'.keys := by
  rw [tapCreate, Links.tunSetIff] at h
  split at h
  · split_ifs at h
    obtain rfl := Option.some.inj h
    exact List.prefix_rfl
  · obtain ⟨-, -, hkeys⟩ := Links.create_eq_some h
    rw [hkeys]
    exact List.prefix_append _ _

section
variable {p : Link → Prop} [DecidablePred p] {f : Link → Link} {hname : ∀ l, (f l).name = l.name}
  {hindex : ∀ l, (f l).index = l.index}

/-- A change keeps the keys. -/
theorem Links.keys_change (h : t.change p f hname hindex = some t')
    (hkind : ∀ l, (f l).kind = l.kind) : t'.keys = t.keys := by
  rw [change] at h
  split_ifs at h
  obtain rfl := Option.some.inj h
  rw [keys, modify, List.map_map]
  refine List.map_congr_left fun l _ => ?_
  rw [Function.comp_apply]
  split_ifs
  · rw [Link.key, hname, hindex, hkind, Link.key]
  · rfl

theorem Links.exists_change (h : ∃ l ∈ t.list, p l) :
    ∃ t', t.change p f hname hindex = some t' := by
  rw [change, if_pos h]
  exact ⟨_, rfl⟩

end

theorem keys_setAddr {hwaddr : List UInt8} (h : netlinkLinkSetAddr t name hwaddr = some t') :
    t'.keys = t.keys := by
  rw [netlinkLinkSetAddr] at h
  split_ifs at h
  exact Links.keys_change h fun _ => rfl

theorem keys_setMaster {dev master : Nat} (h : netlinkLinkSetMaster t dev master = some t') :
    t'.keys = t.keys := by
  rw [netlinkLinkSetMaster] at h
  split_ifs at h
  exact Links.keys_change h fun _ => rfl

theorem keys_enable {enable : Bool} (h : netlinkLinkEnable t name enable = some t') :
    t'.keys = t.keys :=
  Links.keys_change h fun _ => rfl

theorem exists_setAddr (h : name ∈ t.names) {hwaddr : List UInt8} (hne : hwaddr ≠ []) :
    ∃ t', netlinkLinkSetAddr t name hwaddr = some t' := by
  rw [netlinkLinkSetAddr, if_neg hne]
  exact Links.exists_change (List.mem_map.1 h)

theorem exists_setMaster {dev master : Nat} (hdev : dev ∈ t.indices)
    (hmaster : master ∈ t.indices) : ∃ t', netlinkLinkSetMaster t dev master = some t' := by
  rw [netlinkLinkSetMaster, if_pos (.inr hmaster)]
  exact Links.exists_change (List.mem_map.1 hdev)

theorem exists_enable (h : name ∈ t.names) (enable : Bool) :
    ∃ t', netlinkLinkEnable t name enable = some t' :=
  Links.exists_change (List.mem_map.1 h)

end

/-- A namespace with the loopback device and two other ones. -/
def sampleLinks : Links where
  list := [{ index := 1, name := "lo" }, { index := 2, name := "eth0" },
    { index := 3, name := "eth1" }]
  names_nodup := by decide
  indices_nodup := by decide
  positive := by decide
  valid := by decide +kernel

end Runtime

end CcOciRuntime
