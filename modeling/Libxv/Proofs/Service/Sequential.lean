/-
A connection as a sequential server.

Let the user's `decode` be a function of what it finds in the read buffer, `process` one of
the request, and let `encode` append bytes that the response determines.  Then the requests
of a connection are a function of the chunks it has received, and so is the reply to each of
them: `UserCode.requests` and `UserCode.reply` say which, with no service in sight.  This
module connects the first to the service, `Pipeline.lean` the second.
-/
import Libxv.Proofs.Service.Conservation
import Libxv.Proofs.Connection

namespace Libxv

open Function Transition

variable {P : Type} {cfg : Config} {ctl : EpollCtl} {s : State P}

/-- The user's callbacks, as functions. -/
structure UserCode (P : Type) where
  decode : List UInt8 → DecodeOut P
  process : Option P → Option P
  encode : P → List UInt8

variable (user : UserCode P)

/-- One chunk: what stays in the read buffer, and the requests so far. -/
def UserCode.feed (handle : Handle) (before : List UInt8 × List (Option P)) (chunk : Chunk) :
    List UInt8 × List (Option P) :=
  let bytes := before.1 ++ chunk.bytes
  if !handle.decode || !handle.process then ([], before.2)
  else
    let out := user.decode bytes
    (bytes.drop out.advances.sum, before.2 ++ if out.ret = xvOk then [out.request] else [])

/-- The requests that a connection's chunks make. -/
def UserCode.requests (handle : Handle) (chunks : List Chunk) : List (Option P) :=
  (chunks.foldl (user.feed handle) ([], [])).2

/-- What is appended to `write_buffer` for a response. -/
def UserCode.bytes (handle : Handle) (response : Option P) : List UInt8 :=
  if handle.encode then (response.map user.encode).getD [] else []

def UserCode.reply (handle : Handle) (request : Option P) : List UInt8 :=
  user.bytes handle (user.process request)

/-- On connection `c` the user's callbacks behave as `user` says and no thread sends a
message of its own; `malloc` returns addresses above 16. -/
def UserCode.Follows (c : Nat) (s : State P) : Label P → Prop
  | .act (.io t) act =>
      match s.pc (.io t), act with
      | .poll, .read fd out decoded =>
          ((s.io t).loop.slot fd).readIo = some c →
            decoded = user.decode (onConnectionRead (s.conns c).conn out).1.readBuffer.readable
      | .process m, .process response =>
          (s.msgs m).conn = c → response = user.process (s.msgs m).request
      | .respond m _, .respond pieces _ =>
          (s.msgs m).conn = c → ∀ response ∈ (s.msgs m).response,
            encodedBytes pieces = user.encode response
      | .pushTask _, .malloc addr => 16 < addr
      | _, _ => True
  | .act (.worker i) act =>
      match s.pc (.worker i), act with
      | .taskProcess m, .process response =>
          (s.msgs m).conn = c → response = user.process (s.msgs m).request
      | _, _ => True
  | .act (.sender _) (.call c' _) => c' ≠ c
  | _ => True

instance [DecidableEq P] (c : Nat) (s : State P) : ∀ label, Decidable (user.Follows c s label)
  | .act (.io t) act => by
      unfold UserCode.Follows
      dsimp only
      split <;> infer_instance
  | .act (.worker i) act => by
      unfold UserCode.Follows
      dsimp only
      split <;> infer_instance
  | .act (.sender u) act => by
      unfold UserCode.Follows
      cases act <;> infer_instance
  | .incrRef _ | .decrRef _ => inferInstanceAs (Decidable True)

variable {user}

/-! ### Decoding -/

/-- The requests a decode step yields. -/
def Decoded.requests : Decoded P → List (Option P)
  | .request packet => [packet]
  | .back | .close => []

theorem processReadBuffer_feed {conn conn' : Conn} {before : List UInt8} {chunk : Chunk}
    {next : Decoded P} (h : conn.readBuffer.WF)
    (hbuffer : conn.readBuffer.readable = before ++ chunk.bytes)
    (hfits : (user.decode conn.readBuffer.readable).Fits conn.readBuffer)
    (hread : processReadBuffer conn (user.decode conn.readBuffer.readable) = (conn', next)) :
    conn'.readBuffer.WF ∧ ∀ requests, user.feed conn.handle (before, requests) chunk =
      (conn'.readBuffer.readable, requests ++ next.requests) := by
  obtain ⟨hwf, hdrop⟩ := consume_spec _ h hfits
  unfold processReadBuffer at hread
  unfold UserCode.feed
  dsimp only
  rw [← hbuffer]
  split at hread
  · rename_i hoff
    obtain ⟨rfl, rfl⟩ := Prod.mk.inj hread
    refine ⟨xvBufferClear_wf _, fun requests => ?_⟩
    rw [if_pos hoff]
    simp [Decoded.requests]
  · rename_i hon
    simp only [hon]
    dsimp only at hread
    split at hread <;> rename_i hret
    · obtain ⟨rfl, rfl⟩ := Prod.mk.inj hread
      refine ⟨hwf, fun requests => ?_⟩
      rw [if_pos hret]
      exact Prod.ext hdrop.symm rfl
    · simp only [hret, if_false]
      split at hread
      all_goals
        obtain ⟨rfl, rfl⟩ := Prod.mk.inj hread
        exact ⟨hwf, fun requests => Prod.ext hdrop.symm rfl⟩

theorem readAndDecode_feed {conn conn' : Conn} {out : ReadOut} {decoded : DecodeOut P}
    {chunks : List Chunk} {next : Decoded P} (h : conn.readBuffer.WF)
    (hdecoded : decoded = user.decode (onConnectionRead conn out).1.readBuffer.readable)
    (hread : readAndDecode conn out decoded = some (conn', chunks, next)) :
    conn'.readBuffer.WF ∧ ∀ requests,
      chunks.foldl (user.feed conn.handle) (conn.readBuffer.readable, requests) =
        (conn'.readBuffer.readable, requests ++ next.requests) := by
  unfold readAndDecode at hread
  generalize hmid : onConnectionRead conn out = mid at hread hdecoded
  obtain ⟨mid, how⟩ := mid
  cases how with
  | back | close =>
      simp only [Option.some.injEq, Prod.mk.injEq] at hread
      obtain ⟨rfl, rfl, rfl⟩ := hread
      obtain ⟨hwf, hsame⟩ := onConnectionRead_idle h hmid (by simp)
      exact ⟨hwf, fun requests => by simp [hsame, Decoded.requests]⟩
  | process =>
      obtain ⟨chunk, rfl, hwf, hbuffer, hhandle⟩ := onConnectionRead_data h hmid
      simp only [Option.ite_none_left_eq_some, Option.some.injEq, Prod.mk.injEq] at hread
      obtain ⟨hfits, rfl, rfl, rfl⟩ := hread
      subst hdecoded
      have hfits : (user.decode mid.readBuffer.readable).Fits mid.readBuffer := by
        simpa using hfits
      obtain ⟨hwf', hfeed⟩ := processReadBuffer_feed hwf hbuffer hfits rfl
      exact ⟨hwf', fun requests => by rw [← hhandle]; exact hfeed requests⟩

/-! ### The read side of a connection -/

/-- The read buffer and the requests are what the chunks make them. -/
def UserCode.Reads (user : UserCode P) (conn : Connection) : Prop :=
  conn.conn.readBuffer.WF ∧ conn.received.foldl (user.feed conn.conn.handle) ([], []) =
    (conn.conn.readBuffer.readable, user.requests conn.conn.handle conn.received)

/-- The read side has not changed. -/
theorem UserCode.Reads.congr {conn conn' : Connection} (h : user.Reads conn)
    (hbuffer : conn'.conn.readBuffer = conn.conn.readBuffer)
    (hhandle : conn'.conn.handle = conn.conn.handle) (hreceived : conn'.received = conn.received) :
    user.Reads conn' := by
  unfold UserCode.Reads
  rw [hbuffer, hhandle, hreceived]
  exact h

theorem UserCode.Reads.read {conn : Connection} {conn' : Conn} {out : ReadOut}
    {decoded : DecodeOut P} {chunks : List Chunk} {next : Decoded P} (h : user.Reads conn)
    (hdecoded : decoded = user.decode (onConnectionRead conn.conn out).1.readBuffer.readable)
    (hread : readAndDecode conn.conn out decoded = some (conn', chunks, next)) :
    user.Reads { conn with conn := conn', received := conn.received ++ chunks } ∧
      user.requests conn'.handle (conn.received ++ chunks) =
        user.requests conn.conn.handle conn.received ++ next.requests := by
  obtain ⟨hwf, hfold⟩ := readAndDecode_feed h.1 hdecoded hread
  have hhandle : conn'.handle = conn.conn.handle := (readAndDecode_same hread).handle
  have hall : (conn.received ++ chunks).foldl (user.feed conn'.handle) ([], []) =
      (conn'.readBuffer.readable,
        user.requests conn.conn.handle conn.received ++ next.requests) := by
    rw [hhandle, List.foldl_append, h.2]
    exact hfold _
  have hrequests : user.requests conn'.handle (conn.received ++ chunks) =
      user.requests conn.conn.handle conn.received ++ next.requests :=
    congrArg Prod.snd hall
  exact ⟨⟨hwf, by rw [hrequests]; exact hall⟩, hrequests⟩

/-! ### The read side under an instruction -/

variable {c : Nat}

/-- Only a read event changes the read side of a connection. -/
theorem Instr.readSide_eq {a : Agent} {pc pc' : Pc P} {act : Act P} {next : State P}
    (h : Instr cfg ctl s a pc act next pc')
    (hc : c = s.nextConn → ∀ fd handle mem, act ≠ .accept fd handle mem)
    (hread : ∀ fd out decoded, act ≠ .read fd out decoded) :
    (next.conns c).conn.readBuffer = (s.conns c).conn.readBuffer ∧
      (next.conns c).received = (s.conns c).received := by
  have hset : ∀ {i : Nat} {conn : Connection},
      conn.conn.readBuffer = (s.conns i).conn.readBuffer → conn.received = (s.conns i).received →
      (update s.conns i conn c).conn.readBuffer = (s.conns c).conn.readBuffer ∧
        (update s.conns i conn c).received = (s.conns c).received :=
    fun hbuffer hreceived => ⟨update_same s.conns _ _ (fun conn => conn.conn.readBuffer) hbuffer c,
      update_same s.conns _ _ Connection.received hreceived c⟩
  cases h
  case readBack | readClose | request => exact absurd rfl (hread _ _ _)
  case accept t fd handle mem ht hfd =>
    have hne : c ≠ s.nextConn := fun hnew => hc hnew fd handle mem rfl
    simp [State.accept, hne]
  case respond t m c' origin pieces out sent encodes hc' hsent hencodes =>
    exact hset (hsent ▸ processMessage_readBuffer ..) rfl
  case write t fd c' out sent hslot halive hsent =>
    exact hset (hsent ▸ onConnectionWrite_readBuffer ..) rfl
  case close t c' owner resume howner =>
    refine hset ?_ rfl
    show (closeConnection ctl (s.io owner).loop (s.conns c').conn).2.readBuffer = _
    unfold closeConnection
    split <;> rfl
  case closeDel | closeFd | closeFree | freeReturned | assignSelf | adopt | sendInit | finish
      | returnedClosed =>
    exact hset rfl rfl
  all_goals exact ⟨rfl, rfl⟩

/-- The requests of a connection so far. -/
def State.requests (user : UserCode P) (s : State P) (c : Nat) : List (Option P) :=
  user.requests (s.conns c).conn.handle (s.conns c).received

theorem UserCode.Reads.instr (h : user.Reads (s.conns c)) {a : Agent} {act : Act P}
    {next : State P} {pc' : Pc P} (hinstr : Instr cfg ctl s a (s.pc a) act next pc')
    (hc : c = s.nextConn → ∀ fd handle mem, act ≠ .accept fd handle mem)
    (hread : ∀ fd out decoded, act ≠ .read fd out decoded) :
    user.Reads (next.conns c) ∧ next.requests user c = s.requests user c := by
  obtain ⟨hbuffer, hreceived⟩ := hinstr.readSide_eq hc hread
  have hhandle := (hinstr.connStep hc).kept.handle
  refine ⟨h.congr hbuffer hhandle hreceived, ?_⟩
  unfold State.requests
  rw [hhandle, hreceived]

/-- A read event on some connection, and what it does to the requests of `c`. -/
theorem UserCode.Reads.receive (h : user.Reads (s.conns c)) {t fd c' : Nat} {out : ReadOut}
    {decoded : DecodeOut P} {conn : Conn} {chunks : List Chunk} {packet : Decoded P}
    (hpc : s.pc (.io t) = .poll) (hok : user.Follows c s (.act (.io t) (.read fd out decoded)))
    (hslot : ((s.io t).loop.slot fd).readIo = some c')
    (hread : readAndDecode (s.conns c').conn out decoded = some (conn, chunks, packet)) :
    user.Reads ((s.receive c' conn chunks).conns c) ∧
      (s.receive c' conn chunks).requests user c =
        s.requests user c ++ if c' = c then packet.requests else [] := by
  by_cases hcc : c' = c
  · subst hcc
    simp only [UserCode.Follows, hpc] at hok
    obtain ⟨hreads, hrequests⟩ := h.read (hok hslot) hread
    have hconn : (s.receive c' conn chunks).conns c' =
        { s.conns c' with conn := conn, received := (s.conns c').received ++ chunks } :=
      update_self ..
    rw [if_pos rfl]
    unfold State.requests
    rw [hconn]
    exact ⟨hreads, hrequests⟩
  · have hconn : (s.receive c' conn chunks).conns c = s.conns c := update_of_ne (Ne.symm hcc) ..
    rw [if_neg hcc, List.append_nil]
    unfold State.requests
    rw [hconn]
    exact ⟨h, rfl⟩

end Libxv
