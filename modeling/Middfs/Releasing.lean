import Middfs.PollSet
import Middfs.Raising

/-!
# Releasing the buffers

A buffer that was allocated is released at most once by `server_loop`, however
an entry comes to be deleted.  The entries that were deleted stay in the array,
and their buffers keep pointing to what was released.
-/

set_option autoImplicit false

namespace Middfs

/-! ## Functions that release nothing -/

/-- The process is not brought down by an allocation being released again. -/
def NoDoubleFree {α : Type} (result : Except Trap α) : Prop := result ≠ .error .doubleFree

theorem noDoubleFree_ok {α : Type} (a : α) : NoDoubleFree (.ok a : Except Trap α) := fun no => by cases no

theorem noDoubleFree_bind {α β : Type} {x : Except Trap α} {f : α → Except Trap β}
    (first : NoDoubleFree x) (later : ∀ a, NoDoubleFree (f a)) : NoDoubleFree (x >>= f) := by
  cases x with
  | error trap => exact fun same => first (by cases same; rfl)
  | ok a => exact later a

theorem Raises.noDoubleFree {α : Type} {result : Except Trap α} (raises : Raises (· ≠ .doubleFree) result) :
    NoDoubleFree result := fun same => raises .doubleFree same rfl

theorem serializePkt_noDoubleFree (pkt : Packet) (n : Nat) : NoDoubleFree (serializePkt pkt n) :=
  (serializePkt_raises (by decide) pkt (fun _ _ => by decide) n).noDoubleFree

section Deserializers
variable (malloc : Nat → Bool)

theorem deserializeDirents_noDoubleFree (left : Nat) (buf : List UInt8) (ents : List Dirent)
    (used : Nat) (err : Int) : NoDoubleFree (deserializeDirents malloc left buf ents used err) := by
  induction left generalizing ents used err with
  | zero => exact noDoubleFree_ok _
  | succ left ih =>
      cases ents with
      | nil => exact fun no => by cases no
      | cons ent ents =>
          intro bad
          simp only [deserializeDirents] at bad
          split at bad
          · rename_i failed
            cases bad
            exact ih _ _ _ failed
          · cases bad

theorem deserializeDir_noDoubleFree (buf : List UInt8) (dir : Dir) (err : Int) :
    NoDoubleFree (deserializeDir malloc buf dir err) := by
  intro bad
  simp only [deserializeDir] at bad
  split_ifs at bad
  split at bad
  · cases bad
  · split at bad
    · rename_i failed
      cases bad
      exact deserializeDirents_noDoubleFree malloc _ _ _ _ _ failed
    · cases bad

theorem Cursor.tryCall_noDoubleFree {σ α : Type} (s : Cursor σ) (buf : List UInt8)
    {f : List UInt8 → α → Int → Except Trap (Cursor α)} {get : σ → α} {set : α → σ → σ}
    (releases : ∀ buf a err, NoDoubleFree (f buf a err)) : NoDoubleFree (s.tryCall buf f get set) := by
  intro bad
  unfold Cursor.tryCall at bad
  split at bad
  · rename_i failed
    cases bad
    exact releases _ _ _ failed
  · cases bad

theorem deserializeRsp_noDoubleFree (buf : List UInt8) (rsp : Response) (err : Int) :
    NoDoubleFree (deserializeRsp malloc buf rsp err) := by
  intro bad
  simp only [deserializeRsp] at bad
  split_ifs at bad
  unfold deserializeRspUnion at bad
  split_ifs at bad
  · exact Cursor.tryCall_noDoubleFree _ _ (deserializeDir_noDoubleFree malloc) bad
  · cases bad

theorem deserializePkt_noDoubleFree (buf : List UInt8) (pkt : Packet) (err : Int) :
    NoDoubleFree (deserializePkt malloc buf pkt err) := by
  intro bad
  simp only [deserializePkt] at bad
  split_ifs at bad
  split at bad
  · rename_i failed
    cases bad
    unfold deserializePktUnion at failed
    split_ifs at failed
    exact Cursor.tryCall_noDoubleFree _ _ (deserializeRsp_noDoubleFree malloc) failed
  · cases bad

end Deserializers

section Buffers

theorem bufferAdvance_noDoubleFree (buf : Buffer) (n : Nat) : NoDoubleFree (bufferAdvance buf n) := by
  intro bad
  unfold bufferAdvance at bad
  split at bad
  · cases bad
  · cases bad

theorem bufferRead_noDoubleFree (realloc : Nat → Bool) (fd : Int) (result : ReadResult) (buf : Buffer) :
    NoDoubleFree (bufferRead realloc fd result buf) := by
  rcases @bufferRead_cases realloc fd result buf with ⟨_, read, _⟩ | ⟨_, _, _, _, _, read, _⟩
  · rw [read]
    exact noDoubleFree_ok _
  · rw [read]
    exact noDoubleFree_ok _

theorem bufferSerializeLoop_noDoubleFree (realloc : Nat → Bool) {f : Serialize}
    (releases : ∀ n, NoDoubleFree (f n)) (fuel rem : Nat) (buf : Buffer) :
    NoDoubleFree (bufferSerializeLoop realloc f fuel buf rem) := by
  induction fuel generalizing buf rem with
  | zero => exact noDoubleFree_ok _
  | succ fuel ih =>
      intro bad
      unfold bufferSerializeLoop at bad
      split at bad
      · rename_i failed
        cases bad
        exact releases _ failed
      split at bad
      · cases bad
      simp only at bad
      split_ifs at bad
      split at bad
      · cases bad
      · exact ih _ _ bad

theorem bufferSerialize_noDoubleFree (realloc : Nat → Bool) (pkt : Packet) (buf : Buffer) :
    NoDoubleFree (bufferSerialize realloc (serializePkt pkt) buf) := by
  intro bad
  unfold bufferSerialize at bad
  split at bad
  · rename_i failed
    cases bad
    exact bufferSerializeLoop_noDoubleFree realloc (serializePkt_noDoubleFree pkt) _ _ _ failed
  · cases bad
  · split at bad
    · rename_i failed
      cases bad
      exact bufferAdvance_noDoubleFree _ _ failed
    · cases bad

end Buffers

section Handlers

theorem queuePacket_noDoubleFree (calls : Calls) (info : Sockinfo) (pkt : Packet) (clients : Clients)
    (events : List Event) : NoDoubleFree (queuePacket calls info pkt clients events) := by
  intro bad
  unfold queuePacket at bad
  split at bad
  · rename_i failed
    cases bad
    exact bufferSerialize_noDoubleFree _ _ _ failed
  · cases bad
  · cases bad

theorem RequestServed.noDoubleFree {lib : Sorting.Library Client} {calls : Calls} {info : Sockinfo}
    {inPkt : Packet} {clients : Clients} {result : Except Trap (Handled Clients)}
    (served : RequestServed lib calls info inPkt clients result) : NoDoubleFree result := by
  cases served with
  | unnamed => exact fun no => by cases no
  | root _ _ queued =>
      rw [← queued]
      exact queuePacket_noDoubleFree _ _ _ _ _
  | unregistered _ _ _ _ queued =>
      rw [← queued]
      exact queuePacket_noDoubleFree _ _ _ _ _
  | unconnected _ _ _ _ _ _ _ => exact noDoubleFree_ok _
  | forwarded _ _ _ _ _ _ _ queued =>
      rw [← queued]
      exact queuePacket_noDoubleFree _ _ _ _ _

theorem handleConnectFin_noDoubleFree (lib : Sorting.Library Client) (calls : Calls) (info : Sockinfo)
    (inPkt : Packet) (clients : Clients) :
    NoDoubleFree (handleConnectFin lib calls info inPkt clients) := by
  intro bad
  cases handleConnectFin_error lib bad

theorem serverRdFin_noDoubleFree (lib : Sorting.Library Client) (calls : Calls) (info : Sockinfo)
    (inPkt : Packet) (clients : Clients) : NoDoubleFree (serverRdFin lib calls info inPkt clients) := by
  generalize done : serverRdFin lib calls info inPkt clients = result
  cases serverRdFin_cases lib done with
  | connect _ _ connects =>
      rw [← connects]
      exact handleConnectFin_noDoubleFree lib calls info inPkt clients
  | disconnect _ => exact fun no => by cases no
  | request _ _ served => exact served.noDoubleFree
  | unawaited _ _ => exact fun no => by cases no
  | response _ _ queued =>
      rw [← queued]
      exact queuePacket_noDoubleFree _ _ _ _ _
  | unknown => exact noDoubleFree_ok _

theorem serverWrFin_noDoubleFree (info : Sockinfo) (clients : Clients) :
    NoDoubleFree (serverWrFin info clients) := by
  generalize done : serverWrFin info clients = result
  cases serverWrFin_cases done with
  | request _ => exact noDoubleFree_ok _
  | response _ => exact noDoubleFree_ok _
  | unexpected => exact noDoubleFree_ok _

theorem handleRequest_noDoubleFree {σ : Type} (conf : ClientConf) (os : Os σ) (malloc : Nat → Bool)
    (inPkt outPkt : Packet) (files : σ) : NoDoubleFree (handleRequest conf os malloc inPkt outPkt files) := by
  intro bad
  simp only [handleRequest] at bad
  split at bad
  · cases bad
  split at bad
  · rename_i failed
    cases bad
    unfold handleRequestType at failed
    split_ifs at failed
    · split at failed
      · rename_i renamed
        cases failed
        unfold handleRequestRename at renamed
        split at renamed
        · cases renamed
        · split at renamed
          · cases renamed
          · cases renamed
      · cases failed
  · cases bad
  · cases bad

theorem clientRdFin_noDoubleFree {σ : Type} (conf : ClientConf) (os : Os σ) (calls : Calls)
    (info : Sockinfo) (inPkt : Packet) (files : σ) :
    NoDoubleFree (clientRdFin conf os calls info inPkt files) := by
  intro bad
  unfold clientRdFin at bad
  split_ifs at bad
  · split at bad
    · rename_i failed
      cases bad
      exact handleRequest_noDoubleFree conf os _ _ _ _ failed
    · split_ifs at bad
      split at bad
      · rename_i failed
        cases bad
        exact bufferSerialize_noDoubleFree _ _ _ failed
      · cases bad
      · cases bad
  · cases bad

theorem clientWrFin_noDoubleFree {σ : Type} (info : Sockinfo) (files : σ) :
    NoDoubleFree (clientWrFin info files) := by
  unfold clientWrFin
  split_ifs
  · exact noDoubleFree_ok _
  · exact fun no => by cases no

end Handlers

/-! ## Entries and their allocations -/

def Sockinfo.Kept (info : Sockinfo) : Prop :=
  info.inEnd.buf.freed = false ∧ info.outEnd.buf.freed = false

/-- An entry in use has its buffers, and one that is not in use was deleted or
never had any. -/
structure Sockinfo.Accounted (info : Sockinfo) : Prop where
  inUse : info.type ≠ .mfdNone → info.Kept
  unused : info.type = .mfdNone →
    ((info.inEnd.buf.freed = true ∧ info.outEnd.buf.freed = true) ∧
        info.inEnd.fd < 0 ∧ info.outEnd.fd < 0) ∨
      ((info.inEnd.buf.mem = [] ∧ info.outEnd.buf.mem = []) ∧ info.state = .mssNone)

theorem Sockinfo.Accounted.watched {info : Sockinfo} (accounted : info.Accounted)
    (watched : info.Watched) : info.Kept := by
  refine accounted.inUse fun unused => ?_
  rcases accounted.unused unused with ⟨_, shut⟩ | ⟨_, idle⟩
  · unfold Sockinfo.Watched at watched
    omega
  · rcases watched with ⟨no, _⟩ | ⟨no, _⟩
    · rw [idle] at no
      cases no
    · rw [idle] at no
      cases no

theorem accounted_deleted (info : Sockinfo) : info.deleted.Accounted where
  inUse := fun no => absurd rfl no
  unused := fun _ => by
    have shut : ∀ sockend : Sockend, sockend.deleted.fd < 0 := fun sockend => by
      show (if sockend.fd ≥ 0 then -1 else sockend.fd) < 0
      split_ifs <;> omega
    exact Or.inl ⟨⟨rfl, rfl⟩, shut info.inEnd, shut info.outEnd⟩

theorem SameButBytes.kept {info info' : Sockinfo} (same : SameButBytes info info') (kept : info.Kept) :
    info'.Kept := ⟨same.inFreed.trans kept.1, same.outFreed.trans kept.2⟩

/-- No handler releases a buffer or gives up an entry. -/
theorem Stepped.kept {κ : Type} {info : Sockinfo} {handled : Handled κ} (stepped : Stepped info handled)
    (kept : info.Kept) : handled.info.Kept ∧ handled.info.type = info.type := by
  cases stepped with
  | goesOn _ _ same => exact ⟨same.kept kept, same.type⟩
  | turns read turned moved turns left =>
      obtain ⟨type, inBuf, outBuf⟩ := turns.freed
      obtain ⟨inKept, outKept⟩ := moved.kept kept
      rw [← inBuf] at inKept
      rw [← outBuf] at outKept
      exact ⟨left.kept ⟨inKept, outKept⟩, (left.type.trans type).trans moved.type⟩

theorem entrywise_accounted {κ : Type} {hi : HandlerInfo κ} (both : hi.Turns) :
    Entrywise hi Sockinfo.Accounted Sockinfo.Kept where
  accepted := fun fd => ⟨fun _ => ⟨rfl, rfl⟩, fun no => by cases no⟩
  polled := fun info info' revents accounted same => by
    refine ⟨fun inUse => ?_, fun unused => ?_⟩
    · show info'.inEnd.buf.freed = false ∧ info'.outEnd.buf.freed = false
      rw [same.inBuf, same.outBuf]
      exact accounted.inUse (same.type ▸ inUse)
    · show ((info'.inEnd.buf.freed = true ∧ info'.outEnd.buf.freed = true) ∧
          info'.inEnd.fd < 0 ∧ info'.outEnd.fd < 0) ∨
        ((info'.inEnd.buf.mem = [] ∧ info'.outEnd.buf.mem = []) ∧ info'.state = .mssNone)
      rw [same.inBuf, same.outBuf, same.inFd, same.outFd, same.state]
      exact accounted.unused (same.type ▸ unused)
  watched := fun _ accounted watched => accounted.watched watched
  listening := fun info accounted type => accounted.inUse (by rw [type]; intro no; cases no)
  event := fun _ info _ handled accounted type done => by
    have inUse : info.type ≠ .mfdNone := by
      rw [type]
      intro no
      cases no
    obtain ⟨kept, same⟩ := (handlePktEvent_stepped both done).kept (accounted.inUse inUse)
    exact ⟨fun _ => ⟨fun _ => kept, fun no => absurd (same ▸ no) inUse⟩, fun _ => kept⟩
  deleted := fun info gone closed kept deletes => by
    rw [sockinfoDelete_eq kept.1 kept.2] at deletes
    cases deletes
    exact accounted_deleted info

theorem Sockinfo.Kept.noDoubleFree {info : Sockinfo} (kept : info.Kept) :
    NoDoubleFree (sockinfoDelete info) := by
  rw [sockinfoDelete_eq kept.1 kept.2]
  exact noDoubleFree_ok _

/-! ## Steps -/

section Poll
variable {array nfds : Nat}

theorem sockendPollfd_noDoubleFree (polarity : Polarity) (sockend : Sockend) (polled : Polled) :
    NoDoubleFree (sockendPollfd array nfds polarity sockend polled) := by
  unfold sockendPollfd
  split_ifs
  · exact noDoubleFree_ok _
  · exact noDoubleFree_ok _
  · exact fun no => by cases no

theorem sockinfoPollfds_noDoubleFree (info : Sockinfo) (polled : Polled) :
    NoDoubleFree (sockinfoPollfds array nfds info polled) := by
  intro bad
  unfold sockinfoPollfds sockinfoPollfdsIn sockinfoPollfdsOut at bad
  split_ifs at bad
  · split at bad
    · rename_i failed
      cases bad
      split at failed
      · rename_i first
        cases failed
        exact sockendPollfd_noDoubleFree _ _ _ first
      · cases failed
    · split_ifs at bad
      split at bad
      · rename_i second
        cases bad
        exact sockendPollfd_noDoubleFree _ _ _ second
      · cases bad
  · simp only at bad
    split_ifs at bad
    split at bad
    · rename_i second
      cases bad
      exact sockendPollfd_noDoubleFree _ _ _ second
    · cases bad

theorem socksPollfds_noDoubleFree (infos : List Sockinfo) (polled : Polled) :
    NoDoubleFree (socksPollfds array nfds infos polled) := by
  induction infos generalizing polled with
  | nil => exact noDoubleFree_ok _
  | cons info infos ih =>
      intro bad
      unfold socksPollfds at bad
      split at bad
      · rename_i failed
        cases bad
        exact sockinfoPollfds_noDoubleFree _ _ failed
      · split at bad
        · rename_i failed
          cases bad
          exact ih _ failed
        · cases bad

variable {reported : List Revents}

theorem sockendCheck_noDoubleFree (sockend : Sockend) :
    NoDoubleFree (sockendCheck array reported sockend) := by
  intro bad
  unfold sockendCheck at bad
  split_ifs at bad
  split at bad
  · rename_i failed
    cases bad
    unfold loadRevents at failed
    split at failed
    · cases failed
    · split_ifs at failed
      · split at failed
        · cases failed
        · cases failed
      · cases failed
  · cases bad

theorem sockinfoCheck_noDoubleFree (info : Sockinfo) :
    NoDoubleFree (sockinfoCheck array reported info) := by
  intro bad
  simp only [sockinfoCheck] at bad
  split at bad
  · rename_i failed
    cases bad
    split_ifs at failed
    exact sockendCheck_noDoubleFree _ failed
  split at bad
  · rename_i failed
    cases bad
    split_ifs at failed
    exact sockendCheck_noDoubleFree _ failed
  split at bad
  · cases bad
  · cases bad

/-- An entry is deleted by a check only when it holds a descriptor. -/
theorem checkEntry_noDoubleFree {info : Sockinfo} (accounted : info.Accounted) :
    NoDoubleFree (checkEntry array reported info) := by
  unfold checkEntry
  split
  · rename_i failed
    intro bad
    cases bad
    exact sockinfoCheck_noDoubleFree _ failed
  · rename_i failing
    rcases sockinfoCheck_cases failing with ⟨_, watched⟩ | ⟨_, no⟩
    · exact (accounted.watched watched).noDoubleFree
    · cases no
  · exact noDoubleFree_ok _

theorem socksCheck_noDoubleFree {infos : List Sockinfo} (accounted : ∀ info ∈ infos, info.Accounted) :
    NoDoubleFree (socksCheck array reported infos) := by
  unfold socksCheck
  induction infos with
  | nil => exact noDoubleFree_ok _
  | cons info infos ih =>
      rw [List.mapM_cons]
      exact noDoubleFree_bind (checkEntry_noDoubleFree (accounted info List.mem_cons_self)) fun _ =>
        noDoubleFree_bind (ih fun other member => accounted other (List.mem_cons_of_mem info member))
          fun _ => noDoubleFree_ok _

end Poll

theorem receivePacket_noDoubleFree (calls : Calls) (info : Sockinfo) :
    NoDoubleFree (receivePacket calls info) := by
  intro bad
  unfold receivePacket at bad
  split_ifs at bad
  · split at bad
    · rename_i read
      cases bad
      exact bufferRead_noDoubleFree _ _ _ _ read
    · cases bad
    · simp only at bad
      split_ifs at bad
      split at bad
      · rename_i decoded
        cases bad
        exact deserializePkt_noDoubleFree _ _ _ _ decoded
      · split_ifs at bad
  · cases bad

structure HandlerInfo.ReleasesNothing {κ : Type} (hi : HandlerInfo κ) : Prop where
  turns : hi.Turns
  rdFin : ∀ calls info pkt state, NoDoubleFree (hi.rdFin calls info pkt state)
  wrFin : ∀ calls info state, NoDoubleFree (hi.wrFin calls info state)

theorem serverHi_releasesNothing (lib : Sorting.Library Client) : (serverHi lib).ReleasesNothing where
  turns := serverHi_turns lib
  rdFin := serverRdFin_noDoubleFree lib
  wrFin := fun _ => serverWrFin_noDoubleFree

theorem clientHi_releasesNothing {σ : Type} (conf : ClientConf) (os : Os σ) :
    (clientHi conf os).ReleasesNothing where
  turns := clientHi_turns conf os
  rdFin := clientRdFin_noDoubleFree conf os
  wrFin := fun _ => clientWrFin_noDoubleFree

theorem Program.releasesNothing {κ : Type} (program : Program κ) : program.hi.ReleasesNothing := by
  cases program with
  | server lib => exact serverHi_releasesNothing lib
  | client conf os => exact clientHi_releasesNothing conf os

section Steps
variable {κ : Type} {hi : HandlerInfo κ} (handlers : hi.ReleasesNothing)
include handlers

theorem handlePktEvent_noDoubleFree (calls : Calls) (info : Sockinfo) (state : κ) :
    NoDoubleFree (handlePktEvent hi calls info state) := by
  have rd : NoDoubleFree (handlePktRd hi calls info state) := by
    intro bad
    unfold handlePktRd at bad
    split at bad
    · rename_i failed
      cases bad
      exact receivePacket_noDoubleFree calls info failed
    · cases bad
    · split at bad
      · rename_i failed
        cases bad
        exact handlers.rdFin _ _ _ _ failed
      · cases bad
  have wr : NoDoubleFree (handlePktWr hi calls info state) := by
    unfold handlePktWr
    split_ifs
    · split
      · exact noDoubleFree_ok _
      · simp only
        split_ifs
        · exact noDoubleFree_ok _
        · exact handlers.wrFin _ _ _
    · exact fun no => by cases no
  unfold handlePktEvent
  split_ifs
  · exact noDoubleFree_ok _
  · split
    · exact rd
    · exact rd
    · exact wr
    · exact wr
    all_goals exact fun no => by cases no

theorem handleSocketEvent_noDoubleFree (calls : Calls) (info : Sockinfo) (state : κ) :
    NoDoubleFree (handleSocketEvent hi calls info state) := by
  intro bad
  unfold handleSocketEvent at bad
  split_ifs at bad
  split at bad
  · split at bad
    · rename_i failed
      cases bad
      exact handlePktEvent_noDoubleFree handlers _ _ _ failed
    · cases bad
  · cases bad
  · split at bad
    · rename_i failed
      cases bad
      unfold handleLstnEvent at failed
      split_ifs at failed
      split at failed
      · cases failed
      · split at failed
        · rename_i made
          cases failed
          cases made
        · cases failed
    · cases bad
  · cases bad

theorem handleAt_noDoubleFree {calls : Calls} {index : Nat} {server : Server κ}
    (accounted : ∀ info ∈ server.socks.sockinfos, info.Accounted) :
    NoDoubleFree (handleAt hi calls index server) := by
  have each := entrywise_accounted handlers.turns
  intro bad
  unfold handleAt at bad
  split at bad
  · cases bad
  rename_i info held
  have before := accounted info (List.mem_of_getElem? held)
  split at bad
  · rename_i failed
    cases bad
    exact handleSocketEvent_noDoubleFree handlers _ _ _ failed
  rename_i handled fresh event
  have attended := handleSocketEvent_cases event
  simp only at bad
  split at bad
  · cases bad
  · rename_i new status
    unfold addSock at bad
    simp only at bad
    split at bad
    · cases bad
    split at bad
    · rename_i failed
      cases bad
      cases attended with
      | accepted fd _ _ => exact Sockinfo.Kept.noDoubleFree ⟨rfl, rfl⟩ failed
    · cases bad
  · cases bad
  · rename_i status
    split at bad
    · rename_i failed
      cases bad
      cases attended with
      | accepted fd _ _ => cases status
      | packet _ type done =>
          exact ((each.attended before (.packet _ type done)).2 status).noDoubleFree failed
      | shut _ => cases status
      | quiet _ => cases status
      | refused type accept =>
          exact ((each.attended before (.refused type accept)).2 status).noDoubleFree failed
    · cases bad
  · cases bad

theorem pollAll_noDoubleFree {calloc : Bool} {ready : Option (Nat → Revents)} {server : Server κ}
    (accounted : ∀ info ∈ server.socks.sockinfos, info.Accounted) :
    NoDoubleFree (pollAll calloc ready server) := by
  have each := entrywise_accounted handlers.turns
  intro bad
  unfold pollAll at bad
  split at bad
  · rename_i failed
    cases bad
    unfold socksPoll at failed
    split at failed
    · rename_i counting
      cases failed
      exact socksPollfds_noDoubleFree _ _ counting
    rename_i counted
    split_ifs at failed
    split at failed
    · rename_i filling
      cases failed
      exact socksPollfds_noDoubleFree _ _ filling
    rename_i filled
    split at failed
    · cases failed
    split at failed
    · rename_i checking
      cases failed
      refine socksCheck_noDoubleFree ?_ checking
      exact forall_of_forall₂ (fun _ _ holds same => each.slots holds same)
        (sameButSlots_trans (socksPollfds_same counted) (socksPollfds_same filled)) accounted
    · cases failed
  · cases bad
  · cases bad

theorem advance_noDoubleFree {moment : Moment} {running : Running κ}
    (accounted : ∀ info ∈ running.server.socks.sockinfos, info.Accounted) :
    NoDoubleFree (advance hi moment running) := by
  intro bad
  unfold advance at bad
  split at bad
  · split at bad
    · rename_i failed
      cases bad
      exact pollAll_noDoubleFree handlers accounted failed
    · cases bad
  · split at bad
    · rename_i failed
      cases bad
      exact handleAt_noDoubleFree handlers accounted failed
    · cases bad

end Steps

/-! ## The array from its first day to its last -/

inductive SocksOp where
  | add (realloc : Nat → Bool) (type : SockType) (fdIn fdOut : Int)
  | loop (calloc : Bool) (ready : Option (Nat → Revents)) (calls : Nat → Calls)

section Lifetime
variable {κ : Type} (hi : HandlerInfo κ)

/-- `middfs_socks_add` of an entry that was initialised, or `server_loop`. -/
def SocksOp.run (server : Server κ) : SocksOp → Except Trap (Server κ)
  | .add realloc type fdIn fdOut =>
      match sockinfoInit type fdIn fdOut with
      | .error trap => .error trap
      | .ok info =>
          match socksAdd realloc info server.socks with
          | none => .ok server
          | some socks => .ok { server with socks := socks }
  | .loop calloc ready calls =>
      match serverLoop hi calloc ready calls server with
      | .error trap => .error trap
      | .ok (server, _) => .ok server

def runOps (ops : List SocksOp) (state : κ) : Except Trap (Server κ) :=
  ops.foldlM (SocksOp.run hi) ⟨socksInit, state, 0, []⟩

/-- From `middfs_socks_init` to `middfs_socks_delete`. -/
def lifetime (ops : List SocksOp) (state : κ) : Except Trap (List (Sockinfo × List Int)) :=
  match runOps hi ops state with
  | .error trap => .error trap
  | .ok server => socksDelete server.socks

end Lifetime

def Socks.NothingLeft (socks : Socks) : Prop :=
  ∀ info ∈ socks.sockinfos, info.type = .mfdNone → info.inEnd.buf.mem = [] ∧ info.outEnd.buf.mem = []

theorem bufferDelete_error {buf : Buffer} {trap : Trap} (failed : bufferDelete buf = .error trap) :
    trap = .doubleFree := by
  unfold bufferDelete at failed
  split_ifs at failed
  cases failed
  rfl

theorem sockendDelete_error {sockend : Sockend} {trap : Trap}
    (failed : sockendDelete sockend = .error trap) : trap = .doubleFree := by
  unfold sockendDelete at failed
  split at failed
  · rename_i released
    cases failed
    exact bufferDelete_error released
  · split_ifs at failed

theorem sockinfoDelete_error {info : Sockinfo} {trap : Trap}
    (failed : sockinfoDelete info = .error trap) : trap = .doubleFree := by
  unfold sockinfoDelete at failed
  split at failed
  · rename_i first
    cases failed
    exact sockendDelete_error first
  · split at failed
    · rename_i second
      cases failed
      exact sockendDelete_error second
    · cases failed

theorem sockendDelete_noDoubleFree_iff (sockend : Sockend) :
    NoDoubleFree (sockendDelete sockend) ↔ (sockend.buf.freed = true → sockend.buf.mem = []) := by
  unfold sockendDelete bufferDelete
  by_cases again : sockend.buf.freed = true ∧ sockend.buf.mem ≠ []
  · rw [if_pos again]
    exact iff_of_false (fun sound => sound rfl) fun nothing => again.2 (nothing again.1)
  · rw [if_neg again]
    refine iff_of_true ?_ fun freed => not_not.mp fun some_ => again ⟨freed, some_⟩
    simp only
    split_ifs
    · exact noDoubleFree_ok _
    · exact noDoubleFree_ok _

theorem sockinfoDelete_noDoubleFree_iff (info : Sockinfo) :
    NoDoubleFree (sockinfoDelete info) ↔
      (info.inEnd.buf.freed = true → info.inEnd.buf.mem = []) ∧
        (info.outEnd.buf.freed = true → info.outEnd.buf.mem = []) := by
  rw [← sockendDelete_noDoubleFree_iff, ← sockendDelete_noDoubleFree_iff]
  unfold sockinfoDelete
  cases first : sockendDelete info.inEnd with
  | error trap =>
      rw [sockendDelete_error first]
      exact iff_of_false (fun sound => sound rfl) fun both => both.1 rfl
  | ok inEnd =>
      cases second : sockendDelete info.outEnd with
      | error trap =>
          rw [sockendDelete_error second]
          exact iff_of_false (fun sound => sound rfl) fun both => both.2 rfl
      | ok outEnd => exact iff_of_true (noDoubleFree_ok _) ⟨noDoubleFree_ok _, noDoubleFree_ok _⟩

theorem socksDelete_noDoubleFree_iff (socks : Socks) :
    NoDoubleFree (socksDelete socks) ↔ ∀ info ∈ socks.sockinfos, NoDoubleFree (sockinfoDelete info) := by
  unfold socksDelete
  induction socks.sockinfos with
  | nil => exact iff_of_true (noDoubleFree_ok _) fun info no => absurd no List.not_mem_nil
  | cons info infos ih =>
      rw [List.mapM_cons, List.forall_mem_cons, ← ih]
      cases first : sockinfoDelete info with
      | error trap =>
          rw [sockinfoDelete_error first]
          exact iff_of_false (fun sound => sound rfl) fun both => both.1 rfl
      | ok entry =>
          cases rest : infos.mapM sockinfoDelete with
          | error trap =>
              refine ⟨fun sound => ⟨noDoubleFree_ok _, fun same => ?_⟩, fun both same => ?_⟩
              · cases same
                exact sound rfl
              · cases same
                exact both.2 rfl
          | ok entries => exact iff_of_true (noDoubleFree_ok _) ⟨noDoubleFree_ok _, noDoubleFree_ok _⟩

/-- The last sweep releases everything once, unless it finds an entry that was
deleted and had a buffer. -/
theorem socksDelete_accounted {socks : Socks} (accounted : ∀ info ∈ socks.sockinfos, info.Accounted) :
    NoDoubleFree (socksDelete socks) ↔ socks.NothingLeft := by
  rw [socksDelete_noDoubleFree_iff]
  refine forall₂_congr fun info member => ?_
  rw [sockinfoDelete_noDoubleFree_iff]
  have account := accounted info member
  by_cases unused : info.type = .mfdNone
  · rcases account.unused unused with ⟨freed, _⟩ | ⟨blank, _⟩
    · refine ⟨fun sound _ => ⟨sound.1 freed.1, sound.2 freed.2⟩, fun left => ?_⟩
      exact ⟨fun _ => (left unused).1, fun _ => (left unused).2⟩
    · exact iff_of_true ⟨fun _ => blank.1, fun _ => blank.2⟩ fun _ => blank
  · obtain ⟨inKept, outKept⟩ := account.inUse unused
    refine iff_of_true ⟨fun no => ?_, fun no => ?_⟩ fun no => absurd no unused
    · rw [inKept] at no
      cases no
    · rw [outKept] at no
      cases no

section Runs
variable {κ : Type} {hi : HandlerInfo κ} (handlers : hi.ReleasesNothing)

theorem accounted_made {type : SockType} {fdIn fdOut : Int} {info : Sockinfo}
    (made : sockinfoInit type fdIn fdOut = .ok info) : info.Accounted := by
  cases type with
  | mfdNone =>
      cases made
      exact ⟨fun no => absurd rfl no, fun _ => Or.inr ⟨⟨rfl, rfl⟩, rfl⟩⟩
  | mfdPktIn =>
      cases made
      exact ⟨fun _ => ⟨rfl, rfl⟩, fun no => by cases no⟩
  | mfdPktOut => cases made
  | mfdLstn =>
      cases made
      exact ⟨fun _ => ⟨rfl, rfl⟩, fun no => by cases no⟩

include handlers

theorem SocksOp.run_accounted (op : SocksOp) {server : Server κ}
    (accounted : ∀ info ∈ server.socks.sockinfos, info.Accounted) :
    NoDoubleFree (op.run hi server) ∧ ∀ server', op.run hi server = .ok server' →
      ∀ info ∈ server'.socks.sockinfos, info.Accounted := by
  cases op with
  | add realloc type fdIn fdOut =>
      cases made : sockinfoInit type fdIn fdOut with
      | error trap =>
          simp only [SocksOp.run, made]
          refine ⟨fun no => ?_, fun _ no => by cases no⟩
          cases no
          cases type <;> cases made
      | ok info =>
          cases added : socksAdd realloc info server.socks with
          | none =>
              simp only [SocksOp.run, made, added]
              refine ⟨noDoubleFree_ok _, fun _ same => ?_⟩
              cases same
              exact accounted
          | some socks =>
              simp only [SocksOp.run, made, added]
              refine ⟨noDoubleFree_ok _, fun _ same => ?_⟩
              cases same
              intro other member
              rw [show socks.sockinfos = _ from socksAdd_sockinfos added] at member
              rcases List.mem_append.mp member with old | new
              · exact accounted other old
              · exact List.mem_singleton.mp new ▸ accounted_made made
  | loop calloc ready calls =>
      have each := entrywise_accounted handlers.turns
      obtain ⟨done, traps⟩ := @serverLoop_runs _ hi calloc ready calls 0 server
      cases looped : serverLoop hi calloc ready calls server with
      | error trap =>
          simp only [SocksOp.run, looped]
          refine ⟨fun same => ?_, fun _ no => by cases no⟩
          cases same
          obtain ⟨running, moment, reaches, brought⟩ := traps _ looped
          exact advance_noDoubleFree handlers (each.runs reaches accounted) brought
      | ok result =>
          obtain ⟨server', retv⟩ := result
          simp only [SocksOp.run, looped]
          refine ⟨noDoubleFree_ok _, fun _ same => ?_⟩
          cases same
          obtain ⟨index, reaches⟩ := done _ _ looped
          exact each.runs reaches accounted

theorem runOps_accounted (ops : List SocksOp) {server : Server κ}
    (accounted : ∀ info ∈ server.socks.sockinfos, info.Accounted) :
    NoDoubleFree (ops.foldlM (SocksOp.run hi) server) ∧
      ∀ server', ops.foldlM (SocksOp.run hi) server = .ok server' →
        ∀ info ∈ server'.socks.sockinfos, info.Accounted := by
  induction ops generalizing server with
  | nil =>
      refine ⟨noDoubleFree_ok _, fun _ same => ?_⟩
      cases same
      exact accounted
  | cons op ops ih =>
      obtain ⟨sound, keeps⟩ := op.run_accounted handlers accounted
      rw [List.foldlM_cons]
      cases ran : op.run hi server with
      | error trap =>
          refine ⟨fun same => sound ?_, fun _ no => by cases no⟩
          cases same
          exact ran
      | ok next => exact ih (keeps next ran)

theorem lifetime_releases_iff (ops : List SocksOp) (state : κ) :
    NoDoubleFree (lifetime hi ops state) ↔
      ∀ server, runOps hi ops state = .ok server → server.socks.NothingLeft := by
  have starts : ∀ info ∈ socksInit.sockinfos, info.Accounted := fun info no => absurd no List.not_mem_nil
  obtain ⟨sound, keeps⟩ :=
    @runOps_accounted κ hi handlers ops ⟨socksInit, state, 0, []⟩ starts
  have unfolded : runOps hi ops state = ops.foldlM (SocksOp.run hi) ⟨socksInit, state, 0, []⟩ := rfl
  unfold lifetime
  rw [unfolded]
  cases ran : ops.foldlM (SocksOp.run hi) ⟨socksInit, state, 0, []⟩ with
  | error trap =>
      refine iff_of_true (fun same => sound ?_) fun _ no => by cases no
      cases same
      exact ran
  | ok server =>
      have accounted := keeps server ran
      refine (socksDelete_accounted accounted).trans ⟨fun left _ same => ?_, fun left => left server rfl⟩
      cases same
      exact left

end Runs

theorem releasedOnce_iff {κ : Type} (program : Program κ) (ops : List SocksOp) (state : κ) :
    NoDoubleFree (lifetime program.hi ops state) ↔
      ∀ server, runOps program.hi ops state = .ok server → server.socks.NothingLeft :=
  lifetime_releases_iff program.releasesNothing ops state

/-- A connection on which a byte is read and then the end of the stream. -/
def shortConnection : List SocksOp :=
  let reads (bytes : List UInt8) : SocksOp :=
    .loop true (some fun _ => { pollin := true }) fun _ => { quietCalls with read := .bytes bytes }
  [.add (fun _ => true) .mfdPktIn 4 (-1), reads [0], reads []]

/-- The connection is deleted, and then once more with the array. -/
theorem shortConnection_releasesTwice :
    ¬ NoDoubleFree (lifetime (Program.server (Sorting.simpleLibrary Client)).hi shortConnection
      clientsInit) := by
  intro once
  exact once (by decide)

end Middfs
