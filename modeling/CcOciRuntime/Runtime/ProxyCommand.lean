import CcOciRuntime.Runtime.ProxyRead

/-!
# Running a command of the proxy

A command writes its request from one watcher of a main loop and reads the answer from another; the
main loop runs until a watcher tells it to quit. The watcher that writes registers the one that
reads, and a watcher that is removed is never called again. `mainLoop` takes fuel: it returns for
some fuel, or the command never returns.

`proxyRunCmd_returns_iff` says, for a proxy that sends a part of a frame and closes its end, when
the command returns. It does not when nothing arrives, when the request is not written, and when the
loop of `cc_proxy_msg_read` meets the end of the file.

The parser is json-glib's: `JsonGlib` is what is used of it.

Reference: `cc_proxy_run_cmd` (`src/proxy.c:544`), `cc_proxy_msg_write` (`:372`),
`cc_proxy_hyper_check_response` (`:485`).
-/

namespace CcOciRuntime

namespace Runtime

/-! ## Checking the response -/

/-- The part of json-glib that reads a response: the document of a text, and the value of a member
as a boolean. A text with a member is longer than four bytes, and none of these is zero: a zero byte
ends the text for the scanner. -/
structure JsonGlib where
  parse : List UInt8 → Option Json
  booleanValue : Json → Bool
  beginsText : ∀ {text doc k v}, parse text = some doc → doc.member k = some v → BeginsText text

/-- Whether the command succeeded; `none` when the response cannot be checked. Reference:
`cc_proxy_hyper_check_response` (`src/proxy.c:485`). -/
def proxyHyperCheckResponse (glib : JsonGlib) (response : List UInt8) : Option Bool :=
  match glib.parse response with
  | none => none
  | some doc => (doc.member "success").map glib.booleanValue

/-- A text that passes the check as a success. -/
def ReportsSuccess (glib : JsonGlib) (response : List UInt8) : Prop :=
  proxyHyperCheckResponse glib response = some true

/-- A reported success begins a text. -/
theorem ReportsSuccess.beginsText {glib : JsonGlib} {response : List UInt8}
    (h : ReportsSuccess glib response) : BeginsText response := by
  rw [ReportsSuccess, proxyHyperCheckResponse] at h
  cases hdoc : glib.parse response with
  | none =>
    rw [hdoc] at h
    cases h
  | some doc =>
    rw [hdoc] at h
    obtain ⟨v, hv, -⟩ := Option.map_eq_some_iff.1 h
    exact glib.beginsText hdoc hv

/-! ## The main loop -/

/-- The status of a write or a flush, after the retries while it is `G_IO_STATUS_AGAIN`. -/
inductive IoStatus
  | normal
  | eof
  | error
  deriving Repr, DecidableEq

/-- What the watcher that writes meets: whether it is called for a hangup alone, and the status of
the header, of the message and of the flush. -/
structure WriteEnv where
  hup : Bool
  header : IoStatus
  message : IoStatus
  flush : IoStatus

/-- Whether the watcher that reads gets registered; the watcher that writes is removed in any case
and does not tell the loop to quit. Reference: `cc_proxy_msg_write` (`src/proxy.c:372`). -/
def proxyMsgWrite (env : WriteEnv) : Bool :=
  if env.hup then false
  else if env.header = .error then false
  else if env.message = .error then false
  else if env.flush = .error then false
  else true

/-- The descriptor when the loop calls the watcher that reads: there is data, an error, or the end
of the file. -/
def Channel.ready (ch : Channel) : Channel :=
  { ch with results := ch.results.dropWhile (· = .again) }

/-- The main loop, once the watcher that writes has been called: `watching` says that the watcher
that reads is registered. -/
def mainLoop : Nat → Bool → WatcherProxyData → Channel → Option WatcherProxyData
  | 0, _, _, _ => none
  | fuel + 1, watching, data, ch =>
    if data.quit then some data
    else if watching then
      match proxyMsgRead fuel data ch.ready with
      | none => none
      | some (stays, data, ch) => mainLoop fuel stays data ch
    else mainLoop fuel false data ch

/-- What a command meets: whether the proxy is connected and the channel can be made, and what the
writing watcher meets. -/
structure ProxyCommandEnv where
  socket : Bool
  channel : Bool
  write : WriteEnv

/-- Reference: `cc_proxy_run_cmd` (`src/proxy.c:544`). -/
def proxyRunCmd (glib : JsonGlib) (env : ProxyCommandEnv) (wantsFd : Bool) (ch : Channel)
    (fuel : Nat) : Option Bool :=
  if !env.socket then some false
  else if !env.channel then some false
  else
    (mainLoop fuel (proxyMsgWrite env.write) { wantsFd } ch).map fun data =>
      (proxyHyperCheckResponse glib data.msgReceived).getD false

/-! ## More fuel -/

/-- More fuel changes nothing. -/
theorem readMissing_mono {need fuel : Nat} {ch : Channel} {total : Nat} {received : List UInt8}
    {r : List UInt8 × Channel} (h : readMissing need fuel ch total received = some r) (k : Nat) :
    readMissing need (fuel + k) ch total received = some r := by
  induction fuel generalizing ch total received with
  | zero => cases h
  | succ fuel ih =>
    rw [Nat.succ_add, readMissing]
    rw [readMissing] at h
    split at h
    · split_ifs at h ⊢ with hmissing
      · exact ih h
      · exact h
    · exact h
    · exact ih h

/-- Nor for a whole message. -/
theorem proxyMsgRead_mono {fuel : Nat} {data : WatcherProxyData} {ch : Channel}
    {r : Bool × WatcherProxyData × Channel} (h : proxyMsgRead fuel data ch = some r) (k : Nat) :
    proxyMsgRead (fuel + k) data ch = some r := by
  rw [proxyMsgRead] at h ⊢
  split at h
  · exact h
  · exact h
  · -- only the last branch, which runs the loop, uses the fuel
    split_ifs at h ⊢
    · exact h
    · exact h
    · exact h
    · dsimp only at h ⊢
      split_ifs at h ⊢ with hwhole
      · exact h
      · split at h
        · cases h
        · next hread =>
          rw [readMissing_mono hread]
          exact h

/-- Nor for the loop. -/
theorem mainLoop_mono {fuel : Nat} {watching : Bool} {data r : WatcherProxyData} {ch : Channel}
    (h : mainLoop fuel watching data ch = some r) (k : Nat) :
    mainLoop (fuel + k) watching data ch = some r := by
  induction fuel generalizing watching data ch with
  | zero => cases h
  | succ fuel ih =>
    rw [Nat.succ_add, mainLoop]
    rw [mainLoop] at h
    split_ifs at h ⊢ with hquit hwatching
    · exact h
    · cases hread : proxyMsgRead fuel data ch.ready with
      | none =>
        rw [hread] at h
        cases h
      | some left =>
        rw [hread] at h
        rw [proxyMsgRead_mono hread]
        exact ih h
    · exact ih h

/-- The main loop ends. -/
def LoopEnds (watching : Bool) (data : WatcherProxyData) (ch : Channel) (r : WatcherProxyData) :
    Prop :=
  ∃ fuel, mainLoop fuel watching data ch = some r

/-- A loop that was left has ended. -/
theorem loopEnds_of_quit {watching : Bool} {data r : WatcherProxyData} {ch : Channel}
    (hquit : data.quit = true) : LoopEnds watching data ch r ↔ r = data := by
  constructor
  · rintro ⟨fuel, h⟩
    cases fuel with
    | zero => cases h
    | succ fuel =>
      rw [mainLoop, if_pos hquit] at h
      exact (Option.some.inj h).symm
  · rintro rfl
    exact ⟨1, by rw [mainLoop, if_pos hquit]⟩

/-- Without a watcher the loop never ends. -/
theorem not_loopEnds_of_removed {data r : WatcherProxyData} {ch : Channel}
    (hquit : data.quit = false) : ¬ LoopEnds false data ch r := by
  rintro ⟨fuel, h⟩
  induction fuel with
  | zero => cases h
  | succ fuel ih =>
    rw [mainLoop, hquit, if_neg Bool.false_ne_true, if_neg Bool.false_ne_true] at h
    exact ih h

/-- A turn of the loop calls the watcher. -/
theorem loopEnds_of_watching {data r : WatcherProxyData} {ch : Channel}
    (hquit : data.quit = false) :
    LoopEnds true data ch r ↔ ∃ fuel stays data' ch',
      proxyMsgRead fuel data ch.ready = some (stays, data', ch') ∧ LoopEnds stays data' ch' r := by
  constructor
  · rintro ⟨fuel, h⟩
    cases fuel with
    | zero => cases h
    | succ fuel =>
      rw [mainLoop, hquit, if_neg Bool.false_ne_true, if_pos rfl] at h
      split at h
      · cases h
      · next stays data' ch' hread => exact ⟨fuel, stays, data', ch', hread, fuel, h⟩
  · rintro ⟨fuel, stays, data', ch', hread, fuel', h⟩
    refine ⟨fuel + fuel' + 1, ?_⟩
    rw [mainLoop, hquit, if_neg Bool.false_ne_true, if_pos rfl, proxyMsgRead_mono hread]
    dsimp only
    rw [Nat.add_comm]
    exact mainLoop_mono h fuel

/-! ## A proxy that closes its end -/

/-- The message that carries a descriptor, when the proxy sends one before the response. -/
def oobMessage : Option Nat → List Recv
  | none => []
  | some fd => [.data [oobFdFlag] (some fd)]

section
variable {data r : WatcherProxyData} {rest : List Recv} {sent : List UInt8}

/-- The first result that is not about missing data, when it is a piece. -/
theorem Arrives.first_piece (h : Arrives rest sent) {first : List UInt8} {fd : Option Nat}
    {more : List Recv} (hfirst : rest.dropWhile (· = .again) = .data first fd :: more) :
    first ≠ [] ∧ fd = none := by
  have hmem : .data first fd ∈ rest :=
    (List.dropWhile_suffix _).subset (hfirst ▸ List.mem_cons_self)
  obtain ⟨hne, -, hfd⟩ := h.1 first fd hmem
  exact ⟨hne, hfd⟩

/-- A loop that ends has got a piece: a watcher that gets an error or the end of the file is
removed, and the loop goes on. -/
theorem exists_first_piece (hquit : data.quit = false) (hrest : Arrives rest sent)
    (h : LoopEnds true data ⟨rest, true⟩ r) : ∃ first more,
      rest.dropWhile (· = .again) = .data first none :: more ∧ first ≠ [] := by
  obtain ⟨fuel, stays, data', ch', hread, hends⟩ := (loopEnds_of_watching hquit).1 h
  rw [Channel.ready, proxyMsgRead, Channel.recvmsg] at hread
  dsimp only at hread
  cases hrs : rest.dropWhile (· = .again) with
  | nil =>
    rw [hrs] at hread
    cases hread
    exact absurd hends (not_loopEnds_of_removed hquit)
  | cons first more =>
    rw [hrs] at hread
    cases first with
    | data piece fd =>
      obtain ⟨hne, rfl⟩ := hrest.first_piece hrs
      exact ⟨piece, more, rfl, hne⟩
    | again =>
      cases hread
      exact absurd hends (not_loopEnds_of_removed hquit)
    | failed =>
      cases hread
      exact absurd hends (not_loopEnds_of_removed hquit)

/-- The loop when the response is to be read, and a piece of it is there. -/
theorem loopEnds_reading_iff (hquit : data.quit = false)
    (hdata : (data.wantsFd && !data.oobFdFound) = false) {first : List UInt8} {more : List Recv}
    (hfirst : rest.dropWhile (· = .again) = .data first none :: more) (hne : first ≠ []) :
    LoopEnds true data ⟨rest, true⟩ r ↔
      ∃ bytes left, readRest true first more = some (bytes, left) ∧
        r = { data with
          msgReceived := data.msgReceived ++ (first.drop messageHeaderLength ++ bytes)
          quit := true } := by
  have hready : Channel.ready ⟨rest, true⟩ = ⟨.data first none :: more, true⟩ := by
    rw [Channel.ready, hfirst]
  rw [loopEnds_of_watching hquit, hready]
  constructor
  · rintro ⟨fuel, stays, data', ch', hcall, hends⟩
    obtain ⟨bytes, left, hread, -, rfl, -⟩ := (exists_proxyMsgRead_iff hdata hne).1 ⟨fuel, hcall⟩
    exact ⟨bytes, left, hread, (loopEnds_of_quit rfl).1 hends⟩
  · rintro ⟨bytes, left, hread, rfl⟩
    obtain ⟨fuel, hcall⟩ := (exists_proxyMsgRead_iff hdata hne).2
      ⟨bytes, left, hread, rfl, rfl, rfl⟩
    exact ⟨fuel, _, _, _, hcall, (loopEnds_of_quit rfl).2 rfl⟩

/-- The loop when a descriptor has to come first, and a piece without one is there. -/
theorem loopEnds_no_descriptor_iff (hquit : data.quit = false)
    (hdata : (data.wantsFd && !data.oobFdFound) = true) {first : List UInt8} {more : List Recv}
    (hfirst : rest.dropWhile (· = .again) = .data first none :: more) (hne : first ≠ []) :
    LoopEnds true data ⟨rest, true⟩ r ↔ r = { data with quit := true } := by
  have hcall : ∀ fuel, proxyMsgRead fuel data (Channel.ready ⟨rest, true⟩)
      = some (false, { data with quit := true }, ⟨more, true⟩) := by
    intro fuel
    rw [Channel.ready, hfirst, proxyMsgRead]
    simp only [Channel.recvmsg, hne, if_false, hdata, if_true]
  rw [loopEnds_of_watching hquit]
  constructor
  · rintro ⟨fuel, stays, data', ch', hread, hends⟩
    rw [hcall] at hread
    cases hread
    exact (loopEnds_of_quit rfl).1 hends
  · rintro rfl
    exact ⟨0, _, _, _, hcall 0, (loopEnds_of_quit rfl).2 rfl⟩

/-- The loop when the message with the descriptor comes first. -/
theorem loopEnds_descriptor_iff (hquit : data.quit = false)
    (hdata : (data.wantsFd && !data.oobFdFound) = true) (fd : Nat) :
    LoopEnds true data ⟨oobMessage (some fd) ++ rest, true⟩ r ↔
      LoopEnds true { data with fd := some fd, oobFdFound := true } ⟨rest, true⟩ r := by
  have hcall : ∀ fuel,
      proxyMsgRead fuel data (Channel.ready ⟨oobMessage (some fd) ++ rest, true⟩)
        = some (true, { data with fd := some fd, oobFdFound := true }, ⟨rest, true⟩) := by
    intro fuel
    rw [Channel.ready, oobMessage, List.singleton_append, proxyMsgRead]
    simp [Channel.recvmsg, hdata]
  rw [loopEnds_of_watching hquit]
  constructor
  · rintro ⟨fuel, stays, data', ch', hread, hends⟩
    rw [hcall] at hread
    cases hread
    exact hends
  · intro hends
    exact ⟨0, _, _, _, hcall 0, hends⟩

/-- What is received when the loop on the response itself ends. -/
theorem exists_loopEnds_reading_iff (hquit : data.quit = false) (hempty : data.msgReceived = [])
    (hdata : (data.wantsFd && !data.oobFdFound) = false) (hrest : Arrives rest sent)
    {msg : List UInt8} :
    (∃ r, LoopEnds true data ⟨rest, true⟩ r ∧ r.msgReceived = msg) ↔
      ∃ first more, rest.dropWhile (· = .again) = .data first none :: more ∧ first ≠ [] ∧
        ∃ bytes left, readRest true first more = some (bytes, left) ∧
          msg = first.drop messageHeaderLength ++ bytes := by
  constructor
  · rintro ⟨r, hends, rfl⟩
    obtain ⟨first, more, hfirst, hne⟩ := exists_first_piece hquit hrest hends
    obtain ⟨bytes, left, hread, rfl⟩ := (loopEnds_reading_iff hquit hdata hfirst hne).1 hends
    exact ⟨first, more, hfirst, hne, bytes, left, hread, by rw [hempty, List.nil_append]⟩
  · rintro ⟨first, more, hfirst, hne, bytes, left, hread, rfl⟩
    refine ⟨_, (loopEnds_reading_iff hquit hdata hfirst hne).2 ⟨bytes, left, hread, rfl⟩, ?_⟩
    rw [hempty, List.nil_append]

/-- What is received when the loop of a command ends. When a descriptor is wanted and the first
piece has none, this is nothing. -/
theorem exists_loopEnds_iff {wantsFd : Bool} {oob : Option Nat}
    (hoob : oob ≠ none → wantsFd = true) (hrest : Arrives rest sent) {msg : List UInt8} :
    (∃ r, LoopEnds true { wantsFd } ⟨oobMessage oob ++ rest, true⟩ r ∧ r.msgReceived = msg) ↔
      ∃ first more, rest.dropWhile (· = .again) = .data first none :: more ∧ first ≠ [] ∧
        if wantsFd = true ∧ oob = none then msg = []
        else ∃ bytes left, readRest true first more = some (bytes, left) ∧
          msg = first.drop messageHeaderLength ++ bytes := by
  cases oob with
  | some fd =>
    obtain rfl := hoob (Option.some_ne_none fd)
    have hdescriptor : ∀ r,
        LoopEnds true { wantsFd := true } ⟨oobMessage (some fd) ++ rest, true⟩ r ↔
        LoopEnds true { wantsFd := true, fd := some fd, oobFdFound := true } ⟨rest, true⟩ r :=
      fun _ => loopEnds_descriptor_iff rfl rfl fd
    simp only [reduceCtorEq, and_false, if_false, hdescriptor]
    exact exists_loopEnds_reading_iff rfl rfl rfl hrest
  | none =>
    cases wantsFd with
    | false =>
      simp only [Bool.false_eq_true, false_and, if_false]
      exact exists_loopEnds_reading_iff rfl rfl rfl hrest
    | true =>
      simp only [and_self, if_true]
      constructor
      · rintro ⟨r, hends, rfl⟩
        obtain ⟨first, more, hfirst, hne⟩ := exists_first_piece rfl hrest hends
        obtain rfl := (loopEnds_no_descriptor_iff rfl rfl hfirst hne).1 hends
        exact ⟨first, more, hfirst, hne, rfl⟩
      · rintro ⟨first, more, hfirst, hne, rfl⟩
        exact ⟨_, (loopEnds_no_descriptor_iff rfl rfl hfirst hne).2 rfl, rfl⟩

/-- The point at which no data is there after all that is asked for, past the first result. -/
theorem exists_again_cons_iff {need total : Nat} {x : Recv} (hx : x = .again → total < need) :
    (∃ pre post, x :: rest = pre ++ .again :: post ∧
      need ≤ total + (pre.flatMap Recv.bytes).length) ↔
    ∃ pre post, rest = pre ++ .again :: post ∧
      need ≤ total + x.bytes.length + (pre.flatMap Recv.bytes).length := by
  constructor
  · rintro ⟨pre, post, heq, hneed⟩
    rcases List.cons_eq_append_iff.1 heq with ⟨rfl, hpost⟩ | ⟨pre', rfl, hrest⟩
    · obtain ⟨rfl, -⟩ := List.cons.inj hpost
      have := hx rfl
      exact absurd hneed (by simpa using this)
    · refine ⟨pre', post, hrest, ?_⟩
      rwa [List.flatMap_cons, List.length_append, ← Nat.add_assoc] at hneed
  · rintro ⟨pre, post, rfl, hneed⟩
    refine ⟨x :: pre, post, rfl, ?_⟩
    rwa [List.flatMap_cons, List.length_append, ← Nat.add_assoc]

/-- With the end of the file behind the results, the loop of a call ends at a failure, or when no
data is there after all that it asks for. -/
theorem isSome_stopAt_closed_iff {need total : Nat} :
    (stopAt need true total rest).isSome ↔ .failed ∈ rest ∨
      ∃ pre post, rest = pre ++ .again :: post ∧
        need ≤ total + (pre.flatMap Recv.bytes).length := by
  induction rest generalizing total with
  | nil => simp [stopAt]
  | cons x rest ih =>
    cases x with
    | again =>
      rw [stopAt]
      split_ifs with hmissing
      · rw [ih, exists_again_cons_iff fun _ => hmissing]
        simp [Recv.bytes]
      · exact iff_of_true rfl
          (.inr ⟨[], rest, rfl, by simpa using Nat.le_of_not_lt hmissing⟩)
    | failed => simp [stopAt]
    | data bytes fd =>
      rw [stopAt, Option.isSome_map, ih, exists_again_cons_iff (fun h => by cases h)]
      simp [Recv.bytes]

/-- A call that has got `first` returns: that is the whole frame it announces, or `recvmsg` fails
later, or no data is there after the frame has arrived. -/
def CallEnds (first : List UInt8) (more : List Recv) : Prop :=
  announced first ≤ first.length ∨ .failed ∈ more ∨
    ∃ pre post, more = pre ++ .again :: post ∧
      announced first ≤ first.length + (pre.flatMap Recv.bytes).length

theorem isSome_readRest_closed_iff {first : List UInt8} :
    (readRest true first rest).isSome ↔ CallEnds first rest := by
  rw [readRest, CallEnds]
  split_ifs with hwhole
  · exact iff_of_true rfl (.inl hwhole)
  · rw [isSome_stopAt_closed_iff, or_iff_right hwhole]

end

/-- The request was written: the watcher that writes is not called for a hangup alone, and no write
fails. -/
def WriteEnv.Written (env : WriteEnv) : Prop :=
  env.hup = false ∧ env.header ≠ .error ∧ env.message ≠ .error ∧ env.flush ≠ .error

theorem proxyMsgWrite_eq_true_iff {env : WriteEnv} : proxyMsgWrite env = true ↔ env.Written := by
  rw [proxyMsgWrite, WriteEnv.Written]
  split_ifs <;> simp_all

/-- An answer that ends the loop: the first result that is not about missing data is a piece of the
response, and it lacks a descriptor that is wanted or the call that gets it returns. -/
def Answered (wantsFd : Bool) (oob : Option Nat) (rest : List Recv) : Prop :=
  ∃ first more, rest.dropWhile (· = .again) = .data first none :: more ∧
    (wantsFd = true ∧ oob = none ∨ CallEnds first more)

section
variable {wantsFd : Bool} {oob : Option Nat} {rest : List Recv} {sent : List UInt8}

/-- The loop ends if there is an answer. -/
theorem exists_loopEnds_iff_answered (hoob : oob ≠ none → wantsFd = true)
    (hrest : Arrives rest sent) :
    (∃ r, LoopEnds true { wantsFd } ⟨oobMessage oob ++ rest, true⟩ r) ↔
      Answered wantsFd oob rest := by
  constructor
  · rintro ⟨r, hends⟩
    obtain ⟨first, more, hfirst, -, hreceived⟩ :=
      (exists_loopEnds_iff hoob hrest).1 ⟨r, hends, rfl⟩
    refine ⟨first, more, hfirst, ?_⟩
    split_ifs at hreceived with hmissing
    · exact .inl hmissing
    · obtain ⟨bytes, left, hread, -⟩ := hreceived
      exact .inr (isSome_readRest_closed_iff.1 (by rw [hread]; rfl))
  · rintro ⟨first, more, hfirst, hanswer⟩
    have hne := (hrest.first_piece hfirst).1
    by_cases hmissing : wantsFd = true ∧ oob = none
    · obtain ⟨r, hends, -⟩ := (@exists_loopEnds_iff _ _ _ _ hoob hrest []).2
        ⟨first, more, hfirst, hne, by rw [if_pos hmissing]⟩
      exact ⟨r, hends⟩
    · have hsome := isSome_readRest_closed_iff.2 (hanswer.resolve_left hmissing)
      obtain ⟨⟨bytes, left⟩, hread⟩ := Option.isSome_iff_exists.1 hsome
      obtain ⟨r, hends, -⟩ := (exists_loopEnds_iff hoob hrest).2
        ⟨first, more, hfirst, hne, by rw [if_neg hmissing]; exact ⟨bytes, left, hread, rfl⟩⟩
      exact ⟨r, hends⟩

theorem flatMap_dropWhile_again (rs : List Recv) :
    (rs.dropWhile (· = .again)).flatMap Recv.bytes = rs.flatMap Recv.bytes := by
  induction rs with
  | nil => rfl
  | cons x rs ih =>
    cases x with
    | again => exact ih
    | failed => rfl
    | data piece fd => rfl

/-- A success that is received is a part of the payload: with a header that is cut the message does
not begin as a text. Only a failure leaves a part of it out. -/
theorem exists_rest_of_loopEnds {glib : JsonGlib} {payload : List UInt8} {r : WatcherProxyData}
    (hoob : oob ≠ none → wantsFd = true) (hlen : payload.length < 2 ^ 32)
    (hrest : Arrives rest sent) (hsent : sent <+: responseFrame payload)
    (hends : LoopEnds true { wantsFd } ⟨oobMessage oob ++ rest, true⟩ r)
    (hsuccess : ReportsSuccess glib r.msgReceived) :
    ∃ tail, payload = r.msgReceived ++ tail ∧ (.failed ∉ rest → tail = []) ∧
      (tail = [] → sent = responseFrame payload) := by
  obtain ⟨first, more, hfirst, hne, hreceived⟩ :=
    (exists_loopEnds_iff hoob hrest).1 ⟨r, hends, rfl⟩
  have hbegins := hsuccess.beginsText
  split_ifs at hreceived
  · rw [hreceived] at hbegins
    obtain ⟨_, h, -⟩ := hbegins 0 (by decide)
    cases h
  · obtain ⟨bytes, left, hread, hmsg⟩ := hreceived
    have hpart : first ++ bytes <+: sent := by
      rw [← hrest.2, ← flatMap_dropWhile_again, hfirst, List.flatMap_cons, Recv.bytes,
        List.prefix_append_right_inj]
      exact readRest_prefix hread
    have hwhole : messageHeaderLength ≤ first.length := by
      by_contra hcut
      have hcut : first.length < messageHeaderLength := Nat.lt_of_not_le hcut
      rw [hmsg, List.drop_eq_nil_of_le (Nat.le_of_lt hcut), List.nil_append] at hbegins
      exact not_beginsText_of_cut_header hne hcut (hpart.trans hsent) hbegins
    obtain ⟨tail, htail⟩ := hpart.trans hsent
    refine ⟨tail, ?_, fun hfailed => ?_, ?_⟩
    · rw [← drop_responseFrame payload, ← htail, List.append_assoc,
        List.drop_append_of_le_length hwhole, hmsg, List.append_assoc]
    · have hmore : .failed ∉ more := fun hmem => hfailed
        ((List.dropWhile_suffix _).subset (hfirst ▸ List.mem_cons_of_mem _ hmem))
      have hall := announced_le_of_readRest hread hmore
      rw [List.append_assoc] at htail
      rw [announced_of_whole_header hlen htail.symm hwhole, ← htail, List.length_append,
        List.length_append] at hall
      exact List.eq_nil_of_length_eq_zero (by omega)
    · rintro rfl
      rw [List.append_nil] at htail
      exact hsent.eq_of_length_le (htail ▸ hpart.length_le)

/-- A success was received whole. -/
theorem complete_of_loopEnds {glib : JsonGlib} {payload : List UInt8} {r : WatcherProxyData}
    (hoob : oob ≠ none → wantsFd = true) (hlen : payload.length < 2 ^ 32)
    (hrest : Arrives rest sent) (hsent : sent <+: responseFrame payload)
    (hfails : .failed ∈ rest → ∀ k < payload.length, ¬ ReportsSuccess glib (payload.take k))
    (hends : LoopEnds true { wantsFd } ⟨oobMessage oob ++ rest, true⟩ r)
    (hsuccess : ReportsSuccess glib r.msgReceived) :
    sent = responseFrame payload ∧ ReportsSuccess glib payload := by
  obtain ⟨tail, hpayload, hunfailed, hall⟩ :=
    exists_rest_of_loopEnds hoob hlen hrest hsent hends hsuccess
  have hnil : tail = [] := by
    by_cases hfailed : .failed ∈ rest
    · by_contra hne
      refine hfails hfailed r.msgReceived.length ?_ ?_
      · have hpos := List.length_pos_of_ne_nil hne
        rw [hpayload, List.length_append]
        omega
      · rwa [hpayload, List.take_left]
    · exact hunfailed hfailed
  refine ⟨hall hnil, ?_⟩
  rwa [hpayload, hnil, List.append_nil]

end

/-- A command over a connection returns what the check of its loop's message gives. -/
theorem proxyRunCmd_eq_some_iff {glib : JsonGlib} {env : ProxyCommandEnv} {wantsFd ret : Bool}
    {ch : Channel} (hsocket : env.socket = true) (hchannel : env.channel = true) :
    (∃ fuel, proxyRunCmd glib env wantsFd ch fuel = some ret) ↔
      ∃ r, LoopEnds (proxyMsgWrite env.write) { wantsFd } ch r ∧
        (proxyHyperCheckResponse glib r.msgReceived).getD false = ret := by
  simp only [proxyRunCmd, hsocket, hchannel, Bool.not_true, Bool.false_eq_true, if_false,
    Option.map_eq_some_iff, LoopEnds]
  exact ⟨fun ⟨fuel, r, h, hret⟩ => ⟨r, ⟨fuel, h⟩, hret⟩,
    fun ⟨r, ⟨fuel, h⟩, hret⟩ => ⟨fuel, r, h, hret⟩⟩

/-- The same theorem for a command over a connection. -/
theorem returns_iff_of_connected {glib : JsonGlib} {payload : List UInt8}
    (hlen : payload.length < 2 ^ 32) {env : ProxyCommandEnv} (hsocket : env.socket = true)
    (hchannel : env.channel = true) {wantsFd : Bool} {oob : Option Nat}
    (hoob : oob ≠ none → wantsFd = true) {rest : List Recv} {sent : List UInt8}
    (hrest : Arrives rest sent) (hsent : sent <+: responseFrame payload)
    (hfails : .failed ∈ rest → ∀ k < payload.length, ¬ ReportsSuccess glib (payload.take k)) :
    ((∃ fuel ret, proxyRunCmd glib env wantsFd ⟨oobMessage oob ++ rest, true⟩ fuel = some ret) ∧
      ∀ fuel, proxyRunCmd glib env wantsFd ⟨oobMessage oob ++ rest, true⟩ fuel = some true →
        sent = responseFrame payload ∧ ReportsSuccess glib payload) ↔
    env.write.Written ∧ Answered wantsFd oob rest := by
  rw [← proxyMsgWrite_eq_true_iff, ← exists_loopEnds_iff_answered hoob hrest]
  constructor
  · rintro ⟨⟨fuel, ret, h⟩, -⟩
    obtain ⟨r, hends, -⟩ := (proxyRunCmd_eq_some_iff hsocket hchannel).1 ⟨fuel, h⟩
    cases hwrite : proxyMsgWrite env.write with
    | false =>
      rw [hwrite] at hends
      exact absurd hends (not_loopEnds_of_removed rfl)
    | true =>
      rw [hwrite] at hends
      exact ⟨rfl, r, hends⟩
  · rintro ⟨hwrite, r, hends⟩
    constructor
    · obtain ⟨fuel, h⟩ := (proxyRunCmd_eq_some_iff hsocket hchannel).2
        ⟨r, by rw [hwrite]; exact hends, rfl⟩
      exact ⟨fuel, _, h⟩
    · intro fuel h
      obtain ⟨r, hends, hcheck⟩ := (proxyRunCmd_eq_some_iff hsocket hchannel).1 ⟨fuel, h⟩
      rw [hwrite] at hends
      have hsuccess : ReportsSuccess glib r.msgReceived := by
        rw [ReportsSuccess]
        cases hr : proxyHyperCheckResponse glib r.msgReceived with
        | none =>
          rw [hr] at hcheck
          cases hcheck
        | some ok =>
          rw [hr] at hcheck
          exact congrArg some hcheck
      exact complete_of_loopEnds hoob hlen hrest hsent hfails hends hsuccess

/-- **A command and a proxy that closes its end.** For every part of a frame that the proxy sends
before it closes its end, in whatever pieces it arrives, and whether or not a descriptor is wanted:
the command returns, and returns true only after a whole response that reports a success, if and
only if there is no connection or no channel, or the request was written and an answer ends the
loop. `recvmsg` may also fail, if no proper part of the payload passes for a success. -/
theorem proxyRunCmd_returns_iff (glib : JsonGlib) (payload : List UInt8)
    (hlen : payload.length < 2 ^ 32) (env : ProxyCommandEnv) (wantsFd : Bool) (oob : Option Nat)
    (hoob : oob ≠ none → wantsFd = true) (rest : List Recv) (sent : List UInt8)
    (hrest : Arrives rest sent) (hsent : sent <+: responseFrame payload)
    (hfails : .failed ∈ rest → ∀ k < payload.length, ¬ ReportsSuccess glib (payload.take k)) :
    ((∃ fuel ret, proxyRunCmd glib env wantsFd ⟨oobMessage oob ++ rest, true⟩ fuel = some ret) ∧
      ∀ fuel, proxyRunCmd glib env wantsFd ⟨oobMessage oob ++ rest, true⟩ fuel = some true →
        sent = responseFrame payload ∧ ReportsSuccess glib payload) ↔
    env.socket = false ∨ env.channel = false ∨
      env.write.Written ∧ Answered wantsFd oob rest := by
  have hfalse : ∀ {f : Nat → Option Bool} {P : Prop}, (∀ fuel, f fuel = some false) →
      (∃ fuel ret, f fuel = some ret) ∧ ∀ fuel, f fuel = some true → P := by
    intro f P hf
    refine ⟨⟨0, false, hf 0⟩, fun fuel h => ?_⟩
    rw [hf fuel] at h
    cases h
  cases hsocket : env.socket with
  | false => exact iff_of_true (hfalse fun fuel => by simp [proxyRunCmd, hsocket]) (.inl rfl)
  | true =>
    cases hchannel : env.channel with
    | false =>
      exact iff_of_true (hfalse fun fuel => by simp [proxyRunCmd, hsocket, hchannel])
        (.inr (.inl rfl))
    | true =>
      simp only [reduceCtorEq, false_or]
      exact returns_iff_of_connected hlen hsocket hchannel hoob hrest hsent hfails

/-- The document of one response. -/
def parseOk (text : List UInt8) : Option Json :=
  if text = okPayload then some (.obj [("success", .bool true)]) else none

theorem beginsText_of_parseOk {text : List UInt8} {doc v : Json} {k : String}
    (hparse : parseOk text = some doc) (_ : doc.member k = some v) : BeginsText text := by
  rw [parseOk] at hparse
  split_ifs at hparse with htext
  rw [htext]
  exact @beginsText_marshalResponse { success := true, error := "", data := [] } okText rfl

/-- A parser that knows one response. -/
def oneResponse : JsonGlib where
  parse := parseOk
  booleanValue
    | .bool b => b
    | _ => false
  beginsText := beginsText_of_parseOk

/-- A connection over which the request is written. -/
def willingCommand : ProxyCommandEnv where
  socket := true
  channel := true
  write := { hup := false, header := .normal, message := .normal, flush := .normal }

/-- The proxy sends a whole response in one piece. -/
theorem proxyRunCmd_returns_whole :
    (∃ fuel ret, proxyRunCmd oneResponse willingCommand false
        ⟨oobMessage none ++ [.data (responseFrame okPayload) none], true⟩ fuel = some ret) ∧
      ∀ fuel, proxyRunCmd oneResponse willingCommand false
        ⟨oobMessage none ++ [.data (responseFrame okPayload) none], true⟩ fuel = some true →
        responseFrame okPayload = responseFrame okPayload ∧
          ReportsSuccess oneResponse okPayload := by
  refine (proxyRunCmd_returns_iff oneResponse okPayload (by decide +kernel) willingCommand false
    none (fun h => absurd rfl h) [.data (responseFrame okPayload) none] (responseFrame okPayload)
    ⟨?_, by simp [Recv.bytes]⟩ List.prefix_rfl (fun h => by simp at h)).2
    (.inr (.inr ⟨?_, ?_⟩))
  · intro piece fd hmem
    cases List.mem_singleton.1 hmem
    exact ⟨by decide +kernel, by decide +kernel, rfl⟩
  · exact ⟨rfl, by decide, by decide, by decide⟩
  · exact ⟨responseFrame okPayload, [], rfl, .inr (.inl (by decide +kernel))⟩

/-- The proxy sends nothing before it closes its end: the watcher that reads is removed and the main
loop is not told to quit. -/
theorem proxyRunCmd_hangs :
    ¬ ∃ fuel ret, proxyRunCmd oneResponse willingCommand false ⟨[], true⟩ fuel = some ret := by
  rintro ⟨fuel, ret, h⟩
  obtain ⟨r, hends, -⟩ := (proxyRunCmd_eq_some_iff rfl rfl).1 ⟨fuel, h⟩
  have hnothing : Arrives [] [] := ⟨fun _ _ hmem => absurd hmem List.not_mem_nil, rfl⟩
  obtain ⟨first, more, hfirst, -⟩ := exists_first_piece rfl hnothing hends
  cases hfirst

end Runtime

end CcOciRuntime
