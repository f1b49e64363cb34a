import CcOciRuntime.Lib.Inet
import CcOciRuntime.Runtime.Links

/-!
# The routes of the kernel

The runtime asks the kernel for its IPv4 routes and keeps those of the main table. A reply is a
sequence of datagrams with a message for each route; a message has a header with the length of the
destination's prefix and a list of attributes. `Dump` is the reply of a kernel with given routes,
and `netlinkGetRoutes_dump` says what is kept of it: one record for each route of the main table,
with the texts of its destination's address, its gateway and its device.

Reference: `netlink_get_routes` (`src/netlink.c:473`).
-/

namespace CcOciRuntime

namespace Runtime

/-- Reference: `struct cc_oci_net_ipv4_route` (`src/oci.h:330`). -/
structure CcOciNetIpv4Route where
  dest : Option String := none
  ifname : Option String := none
  gateway : Option String := none
  deriving DecidableEq

/-! ## Messages -/

/-- What is read of the header of a route. Reference: `struct rtmsg`. -/
structure Rtmsg where
  family : Nat
  dstLen : Nat
  srcLen : Nat

/-- Reference: `struct nlattr`. -/
structure NlAttr where
  type : Nat
  payload : List UInt8

/-- A message of a reply. -/
inductive NlMessage
  | route (rm : Rtmsg) (attrs : List NlAttr)
  | noop
  | done
  | error

/-- Reference: `AF_INET`. -/
def afInet : Nat := 2

/-- Reference: `RT_TABLE_MAIN`. -/
def rtTableMain : Nat := 254

/-- Reference: `RTA_DST`. -/
def rtaDst : Nat := 1

/-- Reference: `RTA_OIF`. -/
def rtaOif : Nat := 4

/-- Reference: `RTA_GATEWAY`. -/
def rtaGateway : Nat := 5

/-- Reference: `RTA_METRICS`. -/
def rtaMetrics : Nat := 8

/-- Reference: `RTA_TABLE`. -/
def rtaTable : Nat := 15

/-- The attributes that must have four bytes: besides the above `RTA_SRC`, `RTA_PRIORITY`,
`RTA_PREFSRC` and `RTA_FLOW`. Reference: `src/netlink.c:350-357`. -/
def wordAttrs : List Nat := [rtaTable, rtaDst, 2, rtaOif, 11, 7, rtaGateway, 6]

/-- An attribute that is nested is empty or has a header of four bytes. Reference:
`data_ipv4_attr_cb` (`src/netlink.c:332`). -/
def NlAttr.Valid (attr : NlAttr) : Prop :=
  (attr.type ∈ wordAttrs → attr.payload.length = 4) ∧
    (attr.type = rtaMetrics → attr.payload = [] ∨ 4 ≤ attr.payload.length)

instance (attr : NlAttr) : Decidable attr.Valid := inferInstanceAs (Decidable (_ ∧ _))

/-- The table of the attributes, the last one of each type in front. Reference: `mnl_attr_parse`. -/
def parseAttrs (attrs : List NlAttr) : Option (List NlAttr) :=
  attrs.foldlM (fun tb attr => if attr.Valid then some (attr :: tb) else none) []

/-- The payload of an attribute. -/
def attrPayload (tb : List NlAttr) (type : Nat) : Option (List UInt8) :=
  (tb.find? (·.type = type)).map NlAttr.payload

/-- The routes with that of a message, and whether the message could be read. Reference:
`process_ipv4_routes` (`src/netlink.c:387`). -/
def processIpv4Routes (links : Links) (rm : Rtmsg) (attrs : List NlAttr)
    (routes : List CcOciNetIpv4Route) : Bool × List CcOciNetIpv4Route :=
  if rm.family ≠ afInet then (true, routes)
  else
    match parseAttrs attrs with
    | none => (false, routes)
    | some tb =>
      match attrPayload tb rtaTable with
      | none => (true, routes)
      | some table =>
        if leNat table ≠ rtTableMain then (true, routes)
        else
          let dest :=
            if rm.srcLen = 0 ∧ rm.dstLen = 0 then some "default"
            else (attrPayload tb rtaDst).map fun addr => (InAddr.ofBytes addr).text
          let gateway := (attrPayload tb rtaGateway).map fun addr => (InAddr.ofBytes addr).text
          let ifname := (attrPayload tb rtaOif).bind fun index => ifIndextoname links (leNat index)
          (true, routes ++ [{ dest, ifname, gateway }])

/-- The results of a callback. -/
inductive MnlCb
  | ok
  | stop
  | error

/-- The messages of a datagram. Reference: `mnl_cb_run`. -/
def mnlCbRun (links : Links) :
    List NlMessage → List CcOciNetIpv4Route → MnlCb × List CcOciNetIpv4Route
  | [], routes => (.ok, routes)
  | .route rm attrs :: msgs, routes =>
    match processIpv4Routes links rm attrs routes with
    | (true, routes) => mnlCbRun links msgs routes
    | (false, routes) => (.error, routes)
  | .noop :: msgs, routes => mnlCbRun links msgs routes
  | .done :: _, routes => (.stop, routes)
  | .error :: _, routes => (.error, routes)

/-- The datagrams of a reply; when there are no more of them, receiving fails. Reference:
`src/netlink.c:505-519`. -/
def receiveRoutes (links : Links) :
    List (List NlMessage) → List CcOciNetIpv4Route → Bool × List CcOciNetIpv4Route
  | [], routes => (false, routes)
  | [] :: _, routes => (true, routes)
  | (msg :: msgs) :: datagrams, routes =>
    match mnlCbRun links (msg :: msgs) routes with
    | (.ok, routes) => receiveRoutes links datagrams routes
    | (.stop, routes) => (true, routes)
    | (.error, routes) => (false, routes)

/-- There is no reply to a request that cannot be sent. Reference: `netlink_get_routes`
(`src/netlink.c:473`). -/
def netlinkGetRoutes (links : Links) (reply : Option (List (List NlMessage)))
    (routes : List CcOciNetIpv4Route) : Bool × List CcOciNetIpv4Route :=
  match reply with
  | none => (false, routes)
  | some datagrams => receiveRoutes links datagrams routes

/-! ## The routes that a reply stands for -/

/-- A next hop, with the index of its device. -/
structure Nexthop where
  gateway : Option InAddr
  oif : Option UInt32
  deriving DecidableEq

/-- A route of the kernel. No bit of the destination is set behind its prefix. The other attributes
of its message are not looked at; the next hops are among them if there are several. -/
structure KernelRoute where
  table : UInt32
  dst : InAddr
  dstLen : Nat
  len_le : dstLen ≤ 32
  host_zero : dst.toNat % 2 ^ (32 - dstLen) = 0
  hop : Nexthop
  moreHops : List Nexthop
  others : List NlAttr
  others_valid : ∀ attr ∈ others, attr.Valid
  others_unread : ∀ attr ∈ others, attr.type ∉ [rtaTable, rtaDst, rtaGateway, rtaOif]

namespace KernelRoute

/-- The next hop that stands in the attributes. -/
def shownHop (r : KernelRoute) : Nexthop := if r.moreHops = [] then r.hop else ⟨none, none⟩

/-- The attributes of the message of a route. -/
def attrs (r : KernelRoute) : List NlAttr :=
  ⟨rtaTable, leBytes 4 r.table.toNat⟩ ::
    ((if r.dstLen = 0 then [] else [⟨rtaDst, r.dst.bytes⟩]) ++ r.others ++
      (r.shownHop.gateway.toList.map fun addr => ⟨rtaGateway, addr.bytes⟩) ++
      (r.shownHop.oif.toList.map fun index => ⟨rtaOif, leBytes 4 index.toNat⟩))

/-- The message of a route. -/
def message (r : KernelRoute) : NlMessage := .route ⟨afInet, r.dstLen, 0⟩ r.attrs

/-- What is kept of a route. -/
def kept (links : Links) (r : KernelRoute) : CcOciNetIpv4Route where
  dest := some (if r.dstLen = 0 then "default" else r.dst.text)
  ifname := r.shownHop.oif.bind fun index => ifIndextoname links index.toNat
  gateway := r.shownHop.gateway.map InAddr.text

/-- A route of the main table. -/
def isMain (r : KernelRoute) : Bool := r.table.toNat = rtTableMain

end KernelRoute

/-- The reply of a kernel with some routes, whose devices are those of the table. The last datagram
has the mark of the end. -/
structure Dump (links : Links) where
  chunks : List (List KernelRoute)
  chunk_ne : ∀ chunk ∈ chunks, chunk ≠ []
  last : List KernelRoute
  devices : ∀ r ∈ chunks.flatten ++ last, ∀ hop ∈ r.hop :: r.moreHops, ∀ index ∈ hop.oif,
    index.toNat ∈ links.indices

namespace Dump
variable {links : Links}

/-- The routes of all tables. -/
def routes (dump : Dump links) : List KernelRoute := dump.chunks.flatten ++ dump.last

/-- The routes of the main table. -/
def mainRoutes (dump : Dump links) : List KernelRoute := dump.routes.filter KernelRoute.isMain

/-- The datagrams of a reply. -/
def datagrams (dump : Dump links) : List (List NlMessage) :=
  dump.chunks.map (·.map KernelRoute.message) ++ [dump.last.map KernelRoute.message ++ [.done]]

end Dump

/-! ## What is kept -/

/-- Valid attributes are collected. -/
theorem foldlM_valid {attrs : List NlAttr} (h : ∀ attr ∈ attrs, attr.Valid) (tb : List NlAttr) :
    attrs.foldlM (fun tb attr => if attr.Valid then some (attr :: tb) else none) tb =
      some (attrs.reverse ++ tb) := by
  induction attrs generalizing tb with
  | nil => rfl
  | cons attr attrs ih =>
    obtain ⟨hattr, hattrs⟩ := List.forall_mem_cons.1 h
    rw [List.foldlM_cons, if_pos hattr, List.reverse_cons, List.append_assoc]
    exact ih hattrs (attr :: tb)

theorem parseAttrs_of_valid {attrs : List NlAttr} (h : ∀ attr ∈ attrs, attr.Valid) :
    parseAttrs attrs = some attrs.reverse := by
  rw [parseAttrs, foldlM_valid h, List.append_nil]

section
variable {links : Links} (r : KernelRoute)

/-- The attributes of a route are valid. -/
theorem valid_attrs : ∀ attr ∈ r.attrs, attr.Valid := by
  have hword : ∀ t ∈ wordAttrs, t ≠ rtaMetrics := by decide
  have hvalid : ∀ {t : Nat} {payload : List UInt8}, t ∈ wordAttrs → payload.length = 4 →
      NlAttr.Valid ⟨t, payload⟩ := fun ht hlen => ⟨fun _ => hlen, fun h => absurd h (hword _ ht)⟩
  intro attr hattr
  simp only [KernelRoute.attrs, List.mem_cons, List.mem_append, List.mem_map] at hattr
  obtain rfl | ((hdst | hother) | ⟨addr, -, rfl⟩) | ⟨index, -, rfl⟩ := hattr
  · exact hvalid (by decide) (length_leBytes ..)
  · split_ifs at hdst with hlen
    · exact absurd hdst List.not_mem_nil
    · rw [List.mem_singleton.1 hdst]
      exact hvalid (by decide) rfl
  · exact r.others_valid attr hother
  · exact hvalid (by decide) rfl
  · exact hvalid (by decide) (length_leBytes ..)

/-- The attribute of a type, when all of the type are one. -/
theorem attrPayload_eq {tb : List NlAttr} {t : Nat} {payload : Option (List UInt8)}
    (hall : ∀ attr ∈ tb, attr.type = t → payload = some attr.payload)
    (hmem : ∀ p ∈ payload, ⟨t, p⟩ ∈ tb) : attrPayload tb t = payload := by
  rw [attrPayload]
  cases hfind : tb.find? (·.type = t) with
  | some attr =>
    have htype : attr.type = t := by simpa using List.find?_some hfind
    exact (hall attr (List.mem_of_find?_eq_some hfind) htype).symm
  | none =>
    cases payload with
    | none => rfl
    | some p => exact absurd (decide_eq_true rfl) (List.find?_eq_none.1 hfind _ (hmem p rfl))

/-- The payload of a type that is read, in the message of a route. -/
def KernelRoute.payload (t : Nat) : Option (List UInt8) :=
  if t = rtaTable then some (leBytes 4 r.table.toNat)
  else if t = rtaDst then if r.dstLen = 0 then none else some r.dst.bytes
  else if t = rtaGateway then r.shownHop.gateway.map InAddr.bytes
  else r.shownHop.oif.map fun index => leBytes 4 index.toNat

/-- The attributes are found by their types. -/
theorem attrPayload_attrs {t : Nat} (ht : t ∈ [rtaTable, rtaDst, rtaGateway, rtaOif]) :
    attrPayload r.attrs.reverse t = r.payload t := by
  refine attrPayload_eq (fun attr hattr htype => ?_) fun p hp => ?_
  · rw [List.mem_reverse] at hattr
    simp only [KernelRoute.attrs, List.mem_cons, List.mem_append, List.mem_map, Option.mem_toList]
      at hattr
    subst htype
    obtain rfl | ((hdst | hother) | ⟨addr, haddr, rfl⟩) | ⟨index, hindex, rfl⟩ := hattr
    · rfl
    · split_ifs at hdst with hlen
      · exact absurd hdst List.not_mem_nil
      · rw [List.mem_singleton.1 hdst]
        exact if_neg hlen
    · exact absurd ht (r.others_unread attr hother)
    · exact congrArg (Option.map InAddr.bytes) haddr
    · exact congrArg (Option.map fun index => leBytes 4 index.toNat) hindex
  · simp only [KernelRoute.attrs, List.mem_reverse, List.mem_cons, List.mem_append, List.mem_map,
      Option.mem_toList]
    simp only [List.mem_cons, List.not_mem_nil, or_false] at ht
    obtain rfl | rfl | rfl | rfl := ht
    · exact .inl (congrArg (NlAttr.mk rtaTable) (Option.some.inj hp).symm)
    · change (if r.dstLen = 0 then none else some r.dst.bytes) = some p at hp
      split_ifs at hp with hlen
      rw [if_neg hlen, ← Option.some.inj hp]
      exact .inr (.inl (.inl (.inl List.mem_cons_self)))
    · obtain ⟨addr, haddr, rfl⟩ := Option.map_eq_some_iff.1 hp
      exact .inr (.inl (.inr ⟨addr, haddr, rfl⟩))
    · obtain ⟨index, hindex, rfl⟩ := Option.map_eq_some_iff.1 hp
      exact .inr (.inr ⟨index, hindex, rfl⟩)

/-- A message of a route of the main table leaves one record, another one leaves none. -/
theorem processIpv4Routes_message (links : Links) (routes : List CcOciNetIpv4Route) :
    processIpv4Routes links ⟨afInet, r.dstLen, 0⟩ r.attrs routes =
      (true, routes ++ if r.isMain then [r.kept links] else []) := by
  have htable : attrPayload r.attrs.reverse rtaTable = some (leBytes 4 r.table.toNat) :=
    attrPayload_attrs r (by decide)
  have hdst : attrPayload r.attrs.reverse rtaDst =
      if r.dstLen = 0 then none else some r.dst.bytes := attrPayload_attrs r (by decide)
  have hgateway : attrPayload r.attrs.reverse rtaGateway =
      r.shownHop.gateway.map InAddr.bytes := attrPayload_attrs r (by decide)
  have hoif : attrPayload r.attrs.reverse rtaOif =
      r.shownHop.oif.map fun index => leBytes 4 index.toNat := attrPayload_attrs r (by decide)
  have hword : ∀ n : UInt32, leNat (leBytes 4 n.toNat) = n.toNat := fun n =>
    (leNat_leBytes 4 n.toNat).trans (Nat.mod_eq_of_lt n.toNat_lt)
  rw [processIpv4Routes, if_neg (not_not.2 rfl), parseAttrs_of_valid (valid_attrs r)]
  dsimp only
  rw [htable]
  dsimp only
  rw [hword]
  by_cases hmain : r.table.toNat = rtTableMain
  · have his : r.isMain = true := decide_eq_true hmain
    have hdest : (if 0 = 0 ∧ r.dstLen = 0 then some "default"
        else (if r.dstLen = 0 then none else some r.dst.bytes).map fun addr =>
          (InAddr.ofBytes addr).text) = some (if r.dstLen = 0 then "default" else r.dst.text) := by
      by_cases hlen : r.dstLen = 0
      · rw [if_pos ⟨rfl, hlen⟩, if_pos hlen]
      · rw [if_neg fun h => hlen h.2, if_neg hlen, if_neg hlen, Option.map_some,
          InAddr.ofBytes_bytes]
    rw [if_neg (not_not.2 hmain), if_pos his, hdst, hgateway, hoif, hdest, Option.map_map,
      Option.bind_map]
    simp only [Function.comp_def, hword, InAddr.ofBytes_bytes]
    rfl
  · have his : ¬ r.isMain = true := fun h => hmain (of_decide_eq_true h)
    rw [if_pos hmain, if_neg his, List.append_nil]

end

section
variable {links : Links}

/-- The routes of the main table are added in order. -/
theorem mnlCbRun_messages (rs : List KernelRoute) (msgs : List NlMessage)
    (routes : List CcOciNetIpv4Route) :
    mnlCbRun links (rs.map KernelRoute.message ++ msgs) routes = mnlCbRun links msgs
      (routes ++ (rs.filter KernelRoute.isMain).map (KernelRoute.kept links)) := by
  induction rs generalizing routes with
  | nil => rw [List.filter_nil, List.map_nil, List.map_nil, List.append_nil, List.nil_append]
  | cons r rs ih =>
    rw [List.map_cons, List.cons_append, KernelRoute.message, mnlCbRun, processIpv4Routes_message]
    dsimp only
    rw [ih, List.append_assoc]
    by_cases hmain : r.isMain = true
    · rw [if_pos hmain, List.filter_cons_of_pos hmain, List.map_cons, List.singleton_append]
    · rw [if_neg hmain, List.filter_cons_of_neg hmain, List.nil_append]

/-- A datagram that is not the last. -/
theorem receiveRoutes_ok {datagram : List NlMessage} (hne : datagram ≠ [])
    {routes routes' : List CcOciNetIpv4Route}
    (h : mnlCbRun links datagram routes = (.ok, routes')) (datagrams : List (List NlMessage)) :
    receiveRoutes links (datagram :: datagrams) routes = receiveRoutes links datagrams routes' := by
  obtain ⟨msg, msgs, rfl⟩ := List.exists_cons_of_ne_nil hne
  rw [receiveRoutes, h]

/-- The last datagram. -/
theorem receiveRoutes_stop {datagram : List NlMessage} (hne : datagram ≠ [])
    {routes routes' : List CcOciNetIpv4Route}
    (h : mnlCbRun links datagram routes = (.stop, routes')) (datagrams : List (List NlMessage)) :
    receiveRoutes links (datagram :: datagrams) routes = (true, routes') := by
  obtain ⟨msg, msgs, rfl⟩ := List.exists_cons_of_ne_nil hne
  rw [receiveRoutes, h]

/-- A dump in several datagrams. -/
theorem receiveRoutes_dump {chunks : List (List KernelRoute)} (hne : ∀ chunk ∈ chunks, chunk ≠ [])
    (last : List KernelRoute) (routes : List CcOciNetIpv4Route) :
    receiveRoutes links (chunks.map (·.map KernelRoute.message) ++
        [last.map KernelRoute.message ++ [.done]]) routes =
      (true, routes ++
        ((chunks.flatten ++ last).filter KernelRoute.isMain).map (KernelRoute.kept links)) := by
  induction chunks generalizing routes with
  | nil => exact receiveRoutes_stop (by simp) (mnlCbRun_messages last [.done] routes) []
  | cons chunk chunks ih =>
    obtain ⟨hchunk, hchunks⟩ := List.forall_mem_cons.1 hne
    have hrun : mnlCbRun links _ _ = _ := mnlCbRun_messages chunk [] routes
    rw [List.append_nil] at hrun
    rw [List.map_cons, List.cons_append, receiveRoutes_ok (by simpa using hchunk) hrun,
      ih hchunks, List.flatten_cons, List.append_assoc chunk, List.filter_append chunk,
      List.map_append, List.append_assoc]

/-- The routes of the main table are kept, each with a record, whatever datagrams they come in. -/
theorem netlinkGetRoutes_dump (dump : Dump links) (routes : List CcOciNetIpv4Route) :
    netlinkGetRoutes links (some dump.datagrams) routes =
      (true, routes ++ dump.mainRoutes.map (KernelRoute.kept links)) :=
  receiveRoutes_dump dump.chunk_ne dump.last routes

end

end Runtime

end CcOciRuntime
