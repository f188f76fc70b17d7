import Middfs.Network
import Middfs.PollSet

/-!
# Every request is answered

A request that was read completely should have a response: the handlers of the
server or of the client responder queue one, or the server passes the request
on and queues what the peer answers.
-/

set_option autoImplicit false

namespace Middfs

open Runs

/-! ## Responses that can be sent -/

/-- A response that can be encoded, into as many bytes as an object can have. -/
structure Packet.Sendable (rsp : Packet) : Prop where
  response : rsp.mpktType = mpktResponseType
  wellFormed : rsp.mpktResponse.WellFormed
  small : rsp.wire.length < 2 ^ 63

theorem Packet.Sendable.whole {rsp : Packet} (sendable : rsp.Sendable) : rsp.WellFormed where
  request := fun no => absurd (sendable.response.symm.trans no) (by decide)
  response := fun _ => sendable.wellFormed
  connect := fun no => absurd (sendable.response.symm.trans no) (by decide)

def responsePacket (rsp : Response) : Packet :=
  { packetInit zeroPacket mpktResponseType with mpktResponse := rsp }

theorem responsePacket_wire_length (rsp : Response) :
    (responsePacket rsp).wire.length = 12 + rsp.wireUnion.length + rsp.payload.length := by
  show (htonl mpktMagicNumber ++ htonl mpktResponseType ++ (htonl rsp.mrspType ++ rsp.wireUnion) ++
    rsp.payload).length = _
  simp only [List.length_append, htonl_length]
  omega

theorem sendable_ok {rsp : Response} (ok : rsp.mrspType = mrspOk) : (responsePacket rsp).Sendable where
  response := rfl
  wellFormed :=
    { known := by
        show rsp.mrspType ≤ mrspErrorType
        rw [ok]
        decide
      data := fun no => absurd (ok.symm.trans no) (by decide)
      dir := fun no => absurd (ok.symm.trans no) (by decide) }
  small := by
    rw [responsePacket_wire_length, Response.wireUnion, if_pos ok, Response.payload,
      if_neg (fun no => absurd (ok.symm.trans no) (by decide))]
    decide

theorem sendable_error {rsp : Response} (error : rsp.mrspType = mrspErrorType) :
    (responsePacket rsp).Sendable where
  response := rfl
  wellFormed :=
    { known := by
        show rsp.mrspType ≤ mrspErrorType
        rw [error]
        decide
      data := fun no => absurd (error.symm.trans no) (by decide)
      dir := fun no => absurd (error.symm.trans no) (by decide) }
  small := by
    rw [responsePacket_wire_length]
    simp only [Response.wireUnion, Response.payload, error, rspTypes_differ, if_false, htonlInt,
      htonl_length, List.length_nil]
    decide

theorem sendable_stat {rsp : Response} (stat : rsp.mrspType = mrspStatType) :
    (responsePacket rsp).Sendable where
  response := rfl
  wellFormed :=
    { known := by
        show rsp.mrspType ≤ mrspErrorType
        rw [stat]
        decide
      data := fun no => absurd (stat.symm.trans no) (by decide)
      dir := fun no => absurd (stat.symm.trans no) (by decide) }
  small := by
    rw [responsePacket_wire_length]
    simp only [Response.wireUnion, Response.payload, stat, rspTypes_differ, if_true, if_false, Stat.wire,
      List.length_append, htonll_length, htonl_length, List.length_nil]
    decide

theorem toNat_length {α : Type} {l : List α} (small : l.length < 2 ^ 62) :
    (UInt64.ofNat l.length).toNat = l.length := by
  rw [UInt64.toNat_ofNat', Nat.mod_eq_of_lt (by omega)]

theorem sendable_data {rsp : Response} {bytes : List UInt8} (data : rsp.mrspType = mrspDataType)
    (held : rsp.mrspData = { mdataNbytes := UInt64.ofNat bytes.length, mdataBuf := some bytes })
    (small : bytes.length < 2 ^ 62) : (responsePacket rsp).Sendable where
  response := rfl
  wellFormed :=
    { known := by
        show rsp.mrspType ≤ mrspErrorType
        rw [data]
        decide
      data := fun _ _ => by
        show ∃ stored, rsp.mrspData.mdataBuf = some stored ∧
          stored.length = rsp.mrspData.mdataNbytes.toNat
        rw [held]
        exact ⟨bytes, rfl, (toNat_length small).symm⟩
      dir := fun no => absurd (data.symm.trans no) (by decide) }
  small := by
    rw [responsePacket_wire_length]
    simp only [Response.wireUnion, Response.payload, data, rspTypes_differ, if_true, if_false,
      Data.payload, held, htonll_length, Option.getD_some]
    have short := List.length_take_le' (UInt64.ofNat bytes.length).toNat bytes
    omega

theorem Dirent.wire_length (name : CStr) (mode : Int32) :
    (Dirent.wire { mdeName := some name, mdeMode := mode }).length = name.val.length + 5 := by
  simp only [Dirent.wire, strWire, htonlInt, List.length_append, htonl_length, List.length_singleton]

/-- The bytes that a directory with these names needs. -/
def listingLength (names : List CStr) : Nat := (names.map fun name => name.val.length + 5).sum

theorem allEntries {entries : List Dirent} (small : entries.length < 2 ^ 62) :
    (⟨UInt64.ofNat entries.length, some entries⟩ : Dir).entries = entries := by
  rw [Dir.entries, toNat_length small, Option.getD_some, List.take_length]

theorem sendable_dir {rsp : Response} {entries : List Dirent} (dir : rsp.mrspType = mrspDirType)
    (held : rsp.mrspDir = { mdirCount := UInt64.ofNat entries.length, mdirEnts := some entries })
    (count : entries.length < 2 ^ 62) (named : ∀ ent ∈ entries, ent.mdeName.isSome)
    (small : (entries.flatMap Dirent.wire).length < 2 ^ 62) : (responsePacket rsp).Sendable where
  response := rfl
  wellFormed :=
    { known := by
        show rsp.mrspType ≤ mrspErrorType
        rw [dir]
        decide
      data := fun no => absurd (dir.symm.trans no) (by decide)
      dir := fun _ => by
        show rsp.mrspDir.entries.length = rsp.mrspDir.mdirCount.toNat ∧
          ∀ ent ∈ rsp.mrspDir.entries, ent.mdeName.isSome
        rw [held, allEntries count]
        exact ⟨(toNat_length count).symm, named⟩ }
  small := by
    rw [responsePacket_wire_length]
    simp only [Response.wireUnion, Response.payload, dir, rspTypes_differ, if_true, if_false, held,
      Dir.wire, allEntries count, List.length_append, htonll_length, List.length_nil]
    omega

/-! ## The client responder -/

/-- What pread(2) reads at a time and what a directory holds is bounded. -/
structure Os.Modest {σ : Type} (os : Os σ) : Prop where
  pread : ∀ fd size offset files bytes, (os.pread fd size offset files).1 = .ok bytes →
    bytes.length < 2 ^ 31
  opendir : ∀ path files entries, (os.opendir path files).1 = .ok entries →
    listingLength (entries.map Prod.fst) < 2 ^ 62

/-- A handler's answer fails, or holds a response that can be sent. -/
def Answerable {σ : Type} (answer : (Int32 × Response) × σ) : Prop :=
  answer.1.1 < 0 ∨ (responsePacket answer.1.2).Sendable

section Client
variable {σ : Type} (conf : ClientConf) {os : Os σ} (modest : os.Modest) (malloc : Nat → Bool)
variable (path : CStr) (req : Request) (rsp : Response) (files : σ)

theorem answerable_error (errno : Errno) : Answerable ((negErrno errno, rsp), files) :=
  Or.inl (negErrno_neg errno)

theorem answerable_ok : Answerable ((0, responseInit rsp mrspOk), files) := Or.inr (sendable_ok rfl)

theorem handleRequestWrite_answers (fd : Int) : Answerable (handleRequestWrite os fd req rsp files) := by
  unfold handleRequestWrite
  cases writeSource req with
  | none => exact Or.inl (show -efault < 0 by decide)
  | some buf =>
      simp only
      obtain ⟨errno | count, files'⟩ := os.pwrite fd buf (offT req.mreqOff) files
      · exact answerable_error rsp files' errno
      · exact Or.inr (sendable_ok rfl)

theorem handleRequestGetattr_answers : Answerable (handleRequestGetattr os path rsp files) := by
  unfold handleRequestGetattr
  obtain ⟨errno | st, files'⟩ := os.stat path files
  · exact answerable_error rsp files' errno
  · exact Or.inr (sendable_stat rfl)

theorem handleRequestAccess_answers : Answerable (handleRequestAccess os path req rsp files) := by
  unfold handleRequestAccess
  obtain ⟨errno | _, files'⟩ := os.access path req.mreqMode files
  · exact answerable_error rsp files' errno
  · exact answerable_ok rsp files'

theorem handleRequestOpen_answers : Answerable (handleRequestOpen os path req rsp files) := by
  unfold handleRequestOpen
  obtain ⟨errno | fd, files'⟩ := os.openFile path req.mreqMode openMode files
  · exact answerable_error rsp files' errno
  · exact answerable_ok rsp (os.close fd files')

theorem handleRequestTruncate_answers : Answerable (handleRequestTruncate os path req rsp files) := by
  unfold handleRequestTruncate
  obtain ⟨errno | _, files'⟩ := os.truncate path (offT req.mreqSize) files
  · exact answerable_error rsp files' errno
  · exact answerable_ok rsp files'

theorem handleRequestRename_answers {toPath : CStr} (held : req.mreqTo.mrPath = some toPath) :
    ∃ answer, handleRequestRename conf os path req rsp files = .ok answer ∧ Answerable answer := by
  unfold handleRequestRename
  rw [held]
  simp only
  obtain ⟨errno | _, files'⟩ := os.rename path (middfsLocalpathTmp conf toPath) files
  · exact ⟨_, rfl, answerable_error rsp files' errno⟩
  · exact ⟨_, rfl, answerable_ok rsp files'⟩

theorem handleRequestFd_answers {handler : Int → Request → Response → σ → (Int32 × Response) × σ}
    (answers : ∀ fd files, Answerable (handler fd req rsp files)) :
    Answerable (handleRequestFd os path handler req rsp files) := by
  unfold handleRequestFd
  obtain ⟨errno | fd, files'⟩ := os.openFile path oRdwr 0 files
  · exact answerable_error rsp files' errno
  · exact answers fd files'

theorem handleRequestDirents_done {entries : List (CStr × UInt8)} {dirents : List Dirent}
    (done : handleRequestDirents malloc entries = (dirents, true)) :
    dirents.length = entries.length ∧ (∀ ent ∈ dirents, ent.mdeName.isSome) ∧
      (dirents.flatMap Dirent.wire).length = listingLength (entries.map Prod.fst) := by
  induction entries generalizing dirents with
  | nil =>
      cases done
      exact ⟨rfl, fun ent no => absurd no List.not_mem_nil, rfl⟩
  | cons entry entries ih =>
      obtain ⟨name, type⟩ := entry
      simp only [handleRequestDirents] at done
      split_ifs at done
      · cases rest : handleRequestDirents malloc entries with
        | mk later finished =>
            rw [rest] at done
            cases done
            obtain ⟨length, named, bytes⟩ := ih rest
            refine ⟨congrArg Nat.succ length, ?_, ?_⟩
            · intro ent member
              rcases List.mem_cons.mp member with rfl | old
              · rfl
              · exact named ent old
            · rw [List.flatMap_cons, List.length_append, Dirent.wire_length, bytes]
              simp only [listingLength, List.map_cons, List.sum_cons]
      · cases done

theorem length_le_listingLength (names : List CStr) : names.length ≤ listingLength names := by
  induction names with
  | nil => exact Nat.le_refl 0
  | cons name names ih =>
      simp only [listingLength, List.map_cons, List.sum_cons, List.length_cons] at ih ⊢
      omega

include modest

theorem handleRequestRead_answers (fd : Int) :
    Answerable (handleRequestRead os malloc fd req rsp files) := by
  unfold handleRequestRead
  split_ifs
  · have bounded := modest.pread fd req.mreqSize.toNat (offT req.mreqOff) files
    generalize os.pread fd req.mreqSize.toNat (offT req.mreqOff) files = called at bounded
    obtain ⟨errno | bytes, files'⟩ := called
    · exact Or.inl (negErrno_neg errno)
    · have short := bounded bytes rfl
      exact Or.inr (@sendable_data _ bytes rfl rfl (by omega))
  · exact Or.inl (show negEnomem < 0 by decide)

theorem handleRequestReaddir_answers :
    Answerable (handleRequestReaddir os malloc path rsp files) := by
  have refused : negEnomem < 0 := by decide
  unfold handleRequestReaddir
  have bounded := modest.opendir path files
  generalize os.opendir path files = called at bounded
  obtain ⟨errno | entries, files'⟩ := called
  · exact Or.inl (negErrno_neg errno)
  have short := bounded entries rfl
  have count := length_le_listingLength (entries.map Prod.fst)
  rw [List.length_map] at count
  simp only
  by_cases granted : malloc (entries.length * sizeofDirent) = true
  · rw [if_pos granted]
    cases copied : handleRequestDirents malloc entries with
    | mk dirents done =>
        cases done with
        | false => exact Or.inl refused
        | true =>
            obtain ⟨length, named, bytes⟩ := handleRequestDirents_done malloc copied
            refine Or.inr (@sendable_dir _ dirents rfl ?_ (by omega) named (by omega))
            rw [length]
  · rw [if_neg granted]
    exact Or.inl refused

end Client

/-! ## The server -/

def Clients.Listable (clients : Clients) : Prop :=
  listingLength (clients.vec.map Client.username) < 2 ^ 62

structure Calls.Granted (calls : Calls) : Prop where
  malloc : calls.malloc = memory
  realloc : calls.realloc = memory

theorem name_le_listingLength {names : List CStr} {name : CStr} (member : name ∈ names) :
    name.val.length + 5 ≤ listingLength names :=
  List.le_sum_of_mem (List.mem_map.mpr ⟨name, member, rfl⟩)

theorem clientDirents_wire (vec : List Client)
    (granted : ∀ client ∈ vec, memory (client.username.val.length + 1) = true) :
    (∀ ent ∈ vec.map (clientDirent memory), ent.mdeName.isSome) ∧
      ((vec.map (clientDirent memory)).flatMap Dirent.wire).length =
        listingLength (vec.map Client.username) := by
  induction vec with
  | nil => exact ⟨fun ent no => absurd no List.not_mem_nil, rfl⟩
  | cons client vec ih =>
      obtain ⟨named, bytes⟩ := ih fun other member => granted other (List.mem_cons_of_mem client member)
      have made : clientDirent memory client =
          { mdeName := some client.username, mdeMode := clientDirMode } := by
        rw [clientDirent, if_pos (granted client List.mem_cons_self)]
      refine ⟨?_, ?_⟩
      · intro ent member
        rcases List.mem_cons.mp member with rfl | old
        · rw [made]
          rfl
        · exact named ent old
      · rw [List.map_cons, List.flatMap_cons, List.length_append, made, Dirent.wire_length, bytes]
        simp only [listingLength, List.map_cons, List.sum_cons]

section Server
variable {calls : Calls} {clients : Clients}

theorem rootResponse_sendable (granted : calls.Granted) (listable : clients.Listable)
    (info : Sockinfo) (req : Request) : (rootResponse calls info clients req).Sendable := by
  have names : ∀ client ∈ clients.vec, memory (client.username.val.length + 1) = true := by
    intro client member
    have within := name_le_listingLength (List.mem_map.mpr ⟨client, member, rfl⟩ :
      client.username ∈ clients.vec.map Client.username)
    unfold Clients.Listable at listable
    exact memory_small _ (by omega)
  have count := length_le_listingLength (clients.vec.map Client.username)
  rw [List.length_map] at count
  unfold Clients.Listable at listable
  obtain ⟨named, bytes⟩ := clientDirents_wire clients.vec names
  show (responsePacket _).Sendable
  simp only [handleReqRdFinRoot, granted.malloc, clientsReaddir]
  split_ifs with readdir _ access
  · exact @sendable_dir _ (clients.vec.map (clientDirent memory)) rfl (by rw [List.length_map]; rfl)
      (by rw [List.length_map]; omega) named (by omega)
  · exact sendable_error rfl
  · exact sendable_error rfl
  · exact sendable_ok rfl
  · exact sendable_error rfl
  · exact sendable_error rfl

theorem queuePacket_whole (granted : calls.Granted) {info : Sockinfo} {pkt : Packet}
    (wf : pkt.WellFormed) (small : pkt.wire.length < 2 ^ 63) (empty : info.outEnd.buf.contents = [])
    (events : List Event) :
    ∃ buf, queuePacket calls info pkt clients events = .ok ⟨.hsSuc, info.withOut buf, clients, events⟩ ∧
      buf.bytes = pkt.image := by
  obtain ⟨buf, encoded, image⟩ := bufferSerialize_whole wf small empty
  refine ⟨buf, ?_, image⟩
  simp only [queuePacket, granted.realloc, encoded]
  rfl

end Server

/-! ## Requests that were read -/

/-- An entry for a connection from which a request is read. -/
structure Sockinfo.Reading (info : Sockinfo) : Prop where
  type : info.type = .mfdPktIn
  state : info.state = .mssReqrd
  opened : 0 ≤ info.inEnd.fd
  empty : info.outEnd.buf.contents = []

/-- A handler leaves no entry in the state in which requests are read. -/
theorem Turned.moves {info turned : Sockinfo} {status : HandlerE} {events : List Event}
    (turns : Turned info status events turned) (kept : status ≠ .hsDel) :
    turned.state ≠ .mssReqrd := by
  cases turns with
  | dropped => exact absurd rfl kept
  | unconnected _ _ _ => exact absurd rfl kept
  | finished _ => exact absurd rfl kept
  | answered _ _ => exact fun no => by cases no
  | forwarded _ _ _ => exact fun no => by cases no
  | relayed _ _ => exact fun no => by cases no
  | crossed _ => exact fun no => by cases no

theorem Stepped.reading {κ : Type} {info : Sockinfo} {handled : Handled κ}
    (stepped : Stepped info handled) (status : handled.status ≠ .hsDel)
    (state : handled.info.state = .mssReqrd) : info.state = .mssReqrd := by
  cases stepped with
  | goesOn _ _ same => exact same.state.symm.trans state
  | turns read turned _ turns left => exact absurd (left.state.symm.trans state) (turns.moves status)

theorem handlePktEvent_reading {κ : Type} {hi : HandlerInfo κ} (both : hi.Turns) {calls : Calls}
    {info : Sockinfo} {state : κ} {handled : Handled κ} (reqrd : info.state = .mssReqrd)
    (done : handlePktEvent hi calls info state = .ok handled) (status : handled.status ≠ .hsDel)
    (still : handled.info.state = .mssReqrd) : handled.info.outEnd.buf = info.outEnd.buf := by
  cases handlePktEvent_cases done with
  | quiet => rfl
  | writes _ watches _ =>
      rw [reqrd] at watches
      cases watches
  | reads _ watches event =>
      cases event with
      | nothing buf _ => rfl
      | rejected buf bytes s _ _ => rfl
      | unfinished buf bytes s _ _ _ => rfl
      | complete buf bytes s after _ _ _ _ finished =>
          obtain ⟨turned, out, turns, left, _⟩ := both.rdFin calls
            (info.withIn (bufferShift buf s.used)) s.obj state after watches finished
          have same : after.info.state = (turned.withOut out).state := congrArg Sockinfo.state left
          exact absurd (same.symm.trans still) (turns.moves status)

/-- Sound, and with nothing queued as long as a request is read. -/
def Sockinfo.Orderly (info : Sockinfo) : Prop :=
  info.Sound ∧ (info.type = .mfdPktIn → info.state = .mssReqrd → info.outEnd.buf.contents = [])

theorem entrywise_orderly {κ : Type} {hi : HandlerInfo κ} (both : hi.Turns) :
    Entrywise hi Sockinfo.Orderly Sockinfo.Deletable where
  accepted := fun fd => ⟨sound_accepted fd, fun _ _ => rfl⟩
  polled := fun info info' revents orderly same => by
    refine ⟨(entrywise_sound both).polled info info' revents orderly.1 same, fun type state => ?_⟩
    show info'.outEnd.buf.contents = []
    rw [same.outBuf]
    exact orderly.2 (same.type.symm.trans type) (same.state.symm.trans state)
  watched := fun info orderly => (entrywise_sound both).watched info orderly.1
  listening := fun info orderly => (entrywise_sound both).listening info orderly.1
  event := fun calls info state handled orderly type done => by
    obtain ⟨sound, deletable⟩ := (entrywise_sound both).event calls info state handled orderly.1 type done
    refine ⟨fun status => ⟨sound status, fun _ still => ?_⟩, deletable⟩
    have reqrd := (handlePktEvent_stepped both done).reading status still
    rw [handlePktEvent_reading both reqrd done status still]
    exact orderly.2 type reqrd
  deleted := fun info gone closed deletable deletes => by
    refine ⟨sound_deleted deletable deletes, fun type => ?_⟩
    rw [sockinfoDelete_eq deletable.inUnreleased deletable.outUnreleased] at deletes
    cases deletes
    cases type

/-- Every connection in `MSS_REQRD`, in every state that is reached. -/
theorem reading_of_reaches {κ : Type} (program : Program κ) {realloc : Nat → Bool} {servsock : Nat}
    {state : κ} {server : Server κ} {running : Running κ}
    (started : serverStart realloc servsock state = .ok (some server))
    (reaches : Reaches program.hi ⟨server, 0, 0⟩ running) {info : Sockinfo}
    (member : info ∈ running.server.socks.sockinfos) (type : info.type = .mfdPktIn)
    (reqrd : info.state = .mssReqrd) : info.Reading := by
  have starts : ∀ info ∈ server.socks.sockinfos, info.Orderly := by
    intro other among
    obtain ⟨sound, listening⟩ := serverStart_entries started other among
    refine ⟨sound, fun packet => ?_⟩
    rw [listening] at packet
    cases packet
  obtain ⟨sound, empty⟩ := (entrywise_orderly program.turns).runs reaches starts info member
  have fitting := sound.fitting
  rw [fitting_packet type, reqrd] at fitting
  exact ⟨type, reqrd, fitting.1, empty type reqrd⟩

/-! ## What becomes of a request -/

/-- A request was read completely, all of it, from the connection `info`, which
was then left as `read`. -/
structure Asked (calls : Calls) (info read : Sockinfo) (pkt : Packet) : Prop where
  reading : info.Reading
  received : ∃ events, receivePacket calls info = .ok (read, events, .inr pkt)
  request : pkt.mpktType = mpktRequestType
  whole : pkt.WellFormed

/-- A response, all of it, is to be written to `requester`. -/
structure Queued (requester : Int) (info : Sockinfo) : Prop where
  state : info.state = .mssRspwr
  outFd : info.outEnd.fd = requester
  whole : ∃ rsp : Packet, rsp.Sendable ∧ info.outEnd.buf.bytes = rsp.wire

structure Happening where
  revents : Revents
  calls : Calls

section Runs
variable {κ : Type} (hi : HandlerInfo κ)

def eventStep (happening : Happening) (left : Handled κ) : Except Trap (Handled κ) :=
  handlePktEvent hi happening.calls { left.info with revents := happening.revents } left.state

/-- Nothing fails: the peer takes what is written to it, and sends something. -/
structure Works (requester : Int) (happening : Happening) (left : Handled κ) : Prop where
  pending : ¬ Queued requester left.info
  granted : happening.calls.Granted
  due : left.info.state.Due happening.revents
  writes : left.info.state = .mssReqfwd → ∃ n, happening.calls.write = .count n
  reads : left.info.state = .mssRspfwd → ∃ buf bytes,
    bufferRead happening.calls.realloc left.info.inEnd.fd happening.calls.read left.info.inEnd.buf =
      .ok (buf, some bytes) ∧ bytes ≠ []

end Runs

/-! ## The peer -/

theorem Packet.Sendable.image {rsp : Packet} (sendable : rsp.Sendable) : rsp.image = rsp.wire :=
  Packet.image_eq_wire (fun no => absurd (sendable.response.symm.trans no) (by decide))

/-- What the server does with the response it waited for. -/
theorem serverRdFin_response (lib : Sorting.Library Client) {calls : Calls} {clients : Clients}
    (granted : calls.Granted) {info : Sockinfo} {rsp : Packet} (state : info.state = .mssRspfwd)
    (empty : info.outEnd.buf.contents = []) (sendable : rsp.Sendable) :
    ∃ out, serverRdFin lib calls info rsp clients =
        .ok ⟨.hsSuc, { info with state := .mssRspwr }.withOut out, clients, []⟩ ∧
      out.bytes = rsp.image := by
  rw [serverRdFin, sendable.response, if_neg (by decide), if_neg (by decide), if_neg (by decide),
    if_pos rfl, handleRspRdFin, if_pos state]
  exact @queuePacket_whole calls clients granted { info with state := .mssRspwr } rsp sendable.whole
    sendable.small empty []

/-- A packet that no handler knows is taken for the answer, whoever it came from, and the
requester hears nothing. -/
theorem misheard_deletes (lib : Sorting.Library Client) {requester : Int} {happening : Happening}
    {left : Handled Clients} (works : Works requester happening left)
    (waiting : left.info.state = .mssRspfwd) (polled : happening.revents ≠ Revents.none) {buf : Buffer}
    {bytes : List UInt8}
    (read : bufferRead happening.calls.realloc left.info.inEnd.fd happening.calls.read left.info.inEnd.buf =
      .ok (buf, some bytes)) {w : Packet} {rest : List UInt8} (wf : w.WellFormed)
    (front : buf.bytes = w.wire ++ rest)
    (unknown : ∀ type ∈ [mpktConnectType, mpktDisconnect, mpktRequestType, mpktResponseType],
      w.mpktType ≠ type) :
    ∃ next, eventStep (serverHi lib) happening left = .ok next ∧ next.status = .hsDel ∧
      next.info.state = .mssRspfwd := by
  obtain ⟨status, info, clients, events⟩ := left
  obtain ⟨revents, calls⟩ := happening
  obtain ⟨_, granted, due, _, reads⟩ := works
  simp only at granted due reads waiting polled read
  obtain ⟨_, _, same, some⟩ := reads waiting
  rw [read] at same
  cases same
  have ready : revents.pollin = true := by
    rcases due.1 (by rw [waiting]; rfl) with none_ | in_
    · exact absurd none_ polled
    · rw [in_]
  have bound : buf.bytes.length < 2 ^ 63 := by
    rw [buf.bytes_length]
    exact buf.used_lt
  have notResponse := unknown mpktResponseType (by decide)
  obtain ⟨q, decoded, live⟩ := deserializePkt_wire memory_small wf
    (show zeroPacket.Grants memory w from fun response => absurd response notResponse)
    (zeroPacket_ready _) (front ▸ bound)
  rw [← front] at decoded
  have type : q.mpktType = w.mpktType := show q.live.mpktType = w.live.mpktType by rw [live]
  have short : ¬ w.wire.length > buf.used := by
    have total := congrArg List.length front
    rw [buf.bytes_length, List.length_append] at total
    omega
  simp only [eventStep, handlePktEvent, if_neg polled, waiting, handlePktRd, receivePacket, ready, if_true,
    read, if_neg some, granted.malloc, decoded, ne_eq, not_true_eq_false, if_false, if_neg short, serverHi,
    serverRdFin, type, if_neg (unknown mpktConnectType (by decide)),
    if_neg (unknown mpktDisconnect (by decide)), if_neg (unknown mpktRequestType (by decide)),
    if_neg notResponse]
  exact ⟨_, rfl, rfl, rfl⟩

section Attending
variable {κ : Type} {hi : HandlerInfo κ} {requester : Int} {handled : Handled κ}

end Attending

def Program.Fits : {κ : Type} → Program κ → κ → Prop
  | _, .server _, clients => clients.Listable
  | _, .client _ os, _ => os.Modest

/-- When a request is answered: at the server, unless the client that it is for is
registered and cannot be connected to; at a client, if its type is implemented. -/
def Program.Answers : {κ : Type} → Program κ → Calls → Request → κ → Prop
  | _, .server lib, calls, req, clients =>
      ∀ owner, lookedUp req = some owner → (clientFind lib owner clients).isSome = true →
        (inetConnect calls).1.isSome = true
  | _, .client _ _, _, req, _ => touchesFiles req.mreqType = true

section Asked
variable {calls : Calls} {info read : Sockinfo} {pkt : Packet}

theorem Asked.left (asked : Asked calls info read pkt) :
    read.state = .mssReqrd ∧ read.inEnd.fd = info.inEnd.fd ∧ read.outEnd.buf.contents = [] := by
  obtain ⟨events, received⟩ := asked.received
  cases receivePacket_cases received with
  | complete buf bytes s gathered _ _ => exact ⟨asked.reading.state, rfl, asked.reading.empty⟩

theorem Asked.small (asked : Asked calls info read pkt) (granted : calls.Granted) :
    pkt.wire.length < 2 ^ 63 := by
  obtain ⟨events, received⟩ := asked.received
  cases receivePacket_cases received with
  | complete buf bytes s gathered clean within =>
      have short : buf.bytes.length < 2 ^ 63 := by
        rw [buf.bytes_length]
        exact buf.used_lt
      have decoded := gathered.decoded
      rw [granted.malloc] at decoded
      rcases complete_cases memory_large short decoded clean
          (by rw [buf.bytes_length]; exact within) with ⟨_, rest, parts, _⟩ | ⟨_, large, _, missing⟩
      · have total := congrArg List.length parts
        rw [List.length_append] at total
        omega
      · -- a request without its payload is not whole
        have filled := asked.whole.payload_length
        rw [Packet.payload, if_pos asked.request, Request.payload, missing asked.request,
          Option.getD_none, ite_self, List.length_nil] at filled
        omega

theorem Asked.owner (asked : Asked calls info read pkt)
    (notRoot : rootRequested pkt.mpktRequest = false) :
    ∃ owner, lookedUp pkt.mpktRequest = some owner := by
  obtain ⟨owner, held⟩ := Option.isSome_iff_exists.mp (asked.whole.request asked.request).rsrc.1
  exact ⟨owner, lookedUp_of_owner notRoot held⟩

end Asked

theorem oneUser_listable : oneUser.Listable := by
  unfold Clients.Listable
  decide

end Middfs
