/-
A client of the echo service reads back what it has written.

Three streams meet here.  What the client has sent is what the service has read and what is
still on its way; what the service has encoded is a prefix of what it has read, as every
request is sent back whole and in order; and what the client has to read is what the socket
has taken of that.
-/
import Libxv.Service.Echo
import Libxv.Proofs.Service.SocketStream
import Libxv.Proofs.BlockIo

namespace Libxv

open Function Transition Memory

variable {P : Type} {cfg : Config} {ctl : EpollCtl} {s : State P} {user : UserCode P} {c : Nat}

/-! ### What the test's user code sends back -/

theorem ServiceTest.feed_foldl {handle : Handle} (h : (handle.decode && handle.process) = true)
    (chunks : List Chunk) (requests : List (Option ServiceTest.Packet)) :
    chunks.foldl (ServiceTest.user.feed handle) ([], requests) =
      ([], requests ++ chunks.map fun chunk => some chunk.bytes) := by
  have hflags : (!handle.decode || !handle.process) = false := by
    rw [← Bool.not_and, h]
    rfl
  induction chunks generalizing requests with
  | nil => simp
  | cons chunk rest ih =>
      have hfeed : ServiceTest.user.feed handle ([], requests) chunk =
          ([], requests ++ [some chunk.bytes]) := by
        simp [UserCode.feed, hflags, ServiceTest.user, ServiceTest.decode]
      rw [List.foldl_cons, hfeed, ih, List.map_cons, List.append_assoc]
      rfl

/-- All replies to a connection's chunks are the chunks, if the handle has the three
callbacks, and nothing otherwise. -/
theorem ServiceTest.replies (handle : Handle) (chunks : List Chunk) :
    (ServiceTest.user.requests handle chunks).flatMap (ServiceTest.user.reply handle) =
      if (handle.decode && handle.process) && handle.encode then chunks.flatMap Chunk.bytes
      else [] := by
  have hreply : ∀ packet, ServiceTest.user.reply handle (some packet) =
      if handle.encode then packet else [] := fun packet => rfl
  unfold UserCode.requests
  cases hflags : handle.decode && handle.process with
  | false =>
      have hnone : ∀ requests, (chunks.foldl (ServiceTest.user.feed handle) requests).2 =
          requests.2 := by
        have hoff : (!handle.decode || !handle.process) = true := by
          rw [← Bool.not_and, hflags]
          rfl
        induction chunks with
        | nil => exact fun _ => rfl
        | cons chunk rest ih =>
            intro requests
            rw [List.foldl_cons, ih]
            simp [UserCode.feed, hoff]
      rw [hnone]
      rfl
  | true =>
      rw [ServiceTest.feed_foldl hflags, List.nil_append, List.flatMap_map]
      simp only [hreply]
      cases handle.encode <;> simp

/-! ### What the service reads -/

theorem State.SameButRefs.heard {next : State P} (h : s.SameButRefs next) (c : Nat) :
    (next.conns c).heard = (s.conns c).heard := by
  obtain ⟨refCount, userRefs, hconn⟩ := h.conns c
  rw [hconn]
  rfl

/-- What a connection has received grows by what a step reads. -/
theorem Instr.heard_eq {a : Agent} {act : Act P} {next : State P} {pc' : Pc P}
    (hinstr : Instr cfg ctl s a (s.pc a) act next pc')
    (hfresh : c = s.nextConn → (s.conns c).received = []) :
    (next.conns c).heard = (s.conns c).heard ++ s.hears c (.act a act) := by
  have hquiet := hinstr.readSide_eq (c := c)
  have hread : ∀ {t fd c' : Nat} {out : ReadOut} {decoded : DecodeOut P} {conn : Conn}
      {chunks : List Chunk} {packet : Decoded P}, s.pc (.io t) = .poll →
      ((s.io t).loop.slot fd).readIo = some c' →
      readAndDecode (s.conns c').conn out decoded = some (conn, chunks, packet) →
      ∀ mid : Connection, mid.received = ((s.receive c' conn chunks).conns c).received →
      mid.heard = (s.conns c).heard ++ s.hears c (.act (.io t) (.read fd out decoded)) := by
    intro t fd c' out decoded conn chunks packet hpc hslot hdecoded mid hmid
    unfold Connection.heard
    rw [hmid]
    by_cases hcc : c' = c
    · subst hcc
      simp [State.hears, hpc, hslot, hdecoded, State.receive]
    · simp [State.hears, hpc, hslot, hcc, State.receive, Ne.symm hcc]
  generalize hpc : s.pc a = pc at hinstr hquiet
  cases hinstr
  case readBack t fd c' out decoded conn chunks hslot halive hdecoded
      | readClose t fd c' out decoded conn chunks hslot halive hdecoded =>
    exact hread hpc hslot hdecoded _ rfl
  case request t fd c' out decoded conn chunks request hslot halive hdecoded =>
    exact hread hpc hslot hdecoded _
      (update_same (s.receive c' conn chunks).conns c' _ Connection.received (by rfl) c)
  case accept t fd handle mem ht hfd =>
    simp only [State.hears, List.append_nil]
    unfold Connection.heard
    by_cases hc : c = s.nextConn
    · rw [hfresh hc, hc, State.accept_self]
    · simp [State.accept, hc]
  all_goals
    unfold Connection.heard
    rw [(hquiet (fun _ => by simp) (by simp)).2]
    simp [State.hears]

/-- One step of a run in which the user code is followed. -/
theorem State.heard_step
    (h : Reach (State.step cfg ctl) (user.Follows c) (· = State.init) s) {label : Label P}
    {s' : State P} (hstep : s.step cfg ctl label = some s') :
    (s'.conns c).heard = (s.conns c).heard ++ s.hears c label := by
  obtain ⟨hsound, hseq⟩ := State.sequenced h
  rcases State.step_cases hstep with ⟨a, act, next, pc, rfl, -, -, hinstr, rfl⟩ |
      ⟨d, rfl, -, rfl⟩ | ⟨d, rfl, -, -, rfl⟩
  · refine hinstr.heard_eq fun hnew => (hseq.fresh ?_).received
    by_contra hne
    obtain ⟨t, ht⟩ := Option.ne_none_iff_exists'.mp hne
    exact absurd (hsound.adopted.known c t ht) (by omega)
  · exact ((s.incrRef_same d).heard c).trans (List.append_nil _).symm
  · exact ((s.decrRef_same d).heard c).trans (List.append_nil _).symm

/-! ### What the service sends back -/

/-- An open connection has been sent back what it has sent, up to what is on its way. -/
theorem ServiceTest.open_prefix {s : State ServiceTest.Packet}
    (h : Reach (State.step cfg ctl) (ServiceTest.user.Follows c) (· = State.init) s)
    (hopen : (s.conns c).conn.status = .opened) :
    (s.conns c).appended <+: (s.conns c).heard := by
  obtain ⟨answered, ⟨rest, hrest⟩, happended⟩ := State.replies_prefix h hopen
  have hall := ServiceTest.replies (s.conns c).conn.handle (s.conns c).received
  have hpre : (s.conns c).appended <+:
      (s.requests ServiceTest.user c).flatMap
        (ServiceTest.user.reply (s.conns c).conn.handle) := by
    rw [happended, ← hrest, List.flatMap_append]
    exact List.prefix_append ..
  refine hpre.trans ?_
  unfold State.requests
  rw [hall]
  split
  · exact List.prefix_refl _
  · exact List.nil_prefix

/-- A closed one too: nothing is appended after the close. -/
theorem ServiceTest.echo_prefix {s : State ServiceTest.Packet}
    (h : Reach (State.step cfg ctl) (ServiceTest.user.Follows c) (· = State.init) s) :
    (s.conns c).appended <+: (s.conns c).heard := by
  refine h.invariant_along (I := fun s => (s.conns c).appended <+: (s.conns c).heard) ?_ ?_
  · intro s hs
    rw [hs]
    exact List.nil_prefix
  · intro s label s' hreach hs hok hstep
    by_cases hopen : (s'.conns c).conn.status = .opened
    · exact ServiceTest.open_prefix (.next hreach hok hstep) hopen
    · have hheard := State.heard_step hreach hstep
      obtain ⟨hsound, hseq⟩ := State.sequenced hreach
      rcases State.step_split hstep with ⟨a, act, next, pc, rfl, -, hinstr, rfl⟩ | hsame
      · by_cases hlt : c < s.nextConn
        · have happended : (next.conns c).appended = (s.conns c).appended := by
            refine (hinstr.connStep_of_lt hlt).appended_cases.resolve_right ?_
            rintro ⟨m, origin, hpc, hm⟩
            have hstatus := hinstr.status_eq hlt fun resume hclose => by
              simp [hpc] at hclose
            exact hopen (hstatus.trans (State.opened hreach.reachable a c
              (by rw [hpc]; exact congrArg some hm)))
          show (next.conns c).appended <+: (next.conns c).heard
          have hheard : (next.conns c).heard = _ := hheard
          rw [happended, hheard]
          exact hs.trans (List.prefix_append ..)
        · have hnone : s.owner c = none := by
            by_contra hne
            obtain ⟨t, ht⟩ := Option.ne_none_iff_exists'.mp hne
            exact hlt (hsound.adopted.known c t ht)
          rw [(hseq.instr_untouched hsound hinstr hnone).appended]
          exact List.nil_prefix
      · rw [hsame.heard]
        obtain ⟨refCount, userRefs, hconn⟩ := hsame.conns c
        rw [hconn]
        exact hs

/-! ### Client and service -/

variable {src dst : Nat → UInt8} {count : Nat} {e : Echo}

/-- The three streams. -/
structure Echo.Kept (cfg : Config) (ctl : EpollCtl) (c : Nat) (src dst : Nat → UInt8)
    (count : Nat) (e : Echo) : Prop where
  run : Reach (Delivering cfg ctl) (fun x => ServiceTest.user.Follows c x.state)
    (Traced.Start (· = State.init)) e.service
  writer : e.writer.Kept src count
  sent : e.writer.sent = (e.service.state.conns c).heard ++ e.inbound
  reader : e.reader.Kept dst count (acceptedOn c e.service.trace)

theorem Echo.Kept.step (h : e.Kept cfg ctl c src dst count) {label : EchoLabel} {e' : Echo}
    (hok : e.Runs c label) (hstep : e.step cfg ctl c label = some e') :
    e'.Kept cfg ctl c src dst count := by
  cases label with
  | write result =>
      obtain ⟨writer, hwrite, rfl⟩ := Option.map_eq_some_iff.mp hstep
      refine ⟨h.run, h.writer.step hwrite, ?_, h.reader⟩
      obtain ⟨-, rfl⟩ := BlockWrite.step_some hwrite
      show e.writer.sent ++ _ = _ ++ (e.inbound ++ _)
      rw [h.sent, List.append_assoc]
  | read result =>
      obtain ⟨reader, hread, rfl⟩ := Option.map_eq_some_iff.mp hstep
      exact ⟨h.run, h.writer, h.sent, h.reader.step hread⟩
  | service label =>
      simp only [Echo.step] at hstep
      split at hstep
      · rename_i hheard
        obtain ⟨service, hservice, rfl⟩ := Option.map_eq_some_iff.mp hstep
        obtain ⟨hmove, htrace⟩ := traced_some hservice
        refine ⟨.next h.run hok hservice, h.writer, ?_, ?_⟩
        · show e.writer.sent = (service.state.conns c).heard ++ e.inbound.drop _
          obtain ⟨rest, hrest⟩ := hheard
          rw [State.heard_step (Reach.untraced_ok h.run) hmove, h.sent, ← hrest,
            List.drop_left, List.append_assoc]
        · show (e.reader.arrive _).Kept dst count (acceptedOn c service.trace)
          rw [htrace, acceptedOn_append]
          exact h.reader.arrive _
      · simp at hstep

theorem Echo.kept (h : Reach (Echo.step cfg ctl c) (Echo.Runs c) (· = Echo.start src dst count) e) :
    e.Kept cfg ctl c src dst count := by
  refine h.invariant (I := Echo.Kept cfg ctl c src dst count) ?_ fun _ _ _ he hok hstep =>
    he.step hok hstep
  rintro e rfl
  exact ⟨.start (Traced.new_start rfl), .start src count, rfl, .start dst count []⟩

/-- What the socket has taken is the front of what has been encoded. -/
theorem Echo.Kept.accepted (h : e.Kept cfg ctl c src dst count) :
    acceptedOn c e.service.trace ++ (e.service.state.conns c).conn.writeBuffer.readable =
        (e.service.state.conns c).appended ∨ acceptedOn c e.service.trace = [] := by
  have hrun := h.run.reachable
  by_cases hlt : c < e.service.state.nextConn
  · obtain ⟨hbytes, happended⟩ := socket_stream hrun hlt
    exact Or.inl (hbytes.trans happended)
  · refine Or.inr (acceptedOn_eq_nil fun e' he' heq => ?_)
    have hknown := (State.delivered hrun).known e' he'
    omega

/-- Nothing is on its way: all that the client has sent has been sent back. -/
structure Echo.Settled (c : Nat) (e : Echo) : Prop where
  opened : (e.service.state.conns c).conn.status = .opened
  adopted : e.service.state.owner c ≠ none
  callbacks : (((e.service.state.conns c).conn.handle.decode &&
    (e.service.state.conns c).conn.handle.process) &&
      (e.service.state.conns c).conn.handle.encode) = true
  read : e.inbound = []
  messages : ∀ m, e.service.state.live m = true → (e.service.state.msgs m).conn ≠ c
  written : (e.service.state.conns c).conn.writeBuffer.readable = []

theorem Echo.Kept.settled (h : e.Kept cfg ctl c src dst count) (hsettled : e.Settled c) :
    acceptedOn c e.service.trace = e.writer.sent := by
  obtain ⟨t, ht⟩ := Option.ne_none_iff_exists'.mp hsettled.adopted
  have hrun := Reach.untraced_ok h.run
  have hlt := (State.sound hrun).adopted.known c t ht
  obtain ⟨hbytes, happended⟩ := socket_stream h.run.reachable hlt
  have hreplies := State.replies_eq hrun hsettled.opened hsettled.messages
  unfold State.requests at hreplies
  rw [ServiceTest.replies, if_pos hsettled.callbacks] at hreplies
  rw [hsettled.written, List.append_nil] at hbytes
  rw [hbytes, happended, hreplies, h.sent, hsettled.read, List.append_nil]
  rfl

/--
**A client of the echo service reads back what it has written**: whatever the io threads, the
workers and other clients do, and however the kernel cuts the transfers, what the client has
been sent is a prefix of what it has sent, all of it when nothing is on its way; and when
`xv_block_read` returns `n`, its buffer holds the first `n` bytes that `xv_block_write` has
been given.  The user code on the client's connection is the test's (`UserCode.Follows`): it
calls `xv_service_send_message` on it from no other thread, and `malloc` returns no task
at an address of 16 or less, so that all of them go to one worker.
-/
theorem echo_reads_back
    (h : Reach (Echo.step cfg ctl c) (Echo.Runs c) (· = Echo.start src dst count) e) :
    acceptedOn c e.service.trace <+: e.writer.sent ∧
      (e.Settled c → acceptedOn c e.service.trace = e.writer.sent) ∧
      ∀ n : Nat, e.reader.loop.ret = some (n : Int) → load e.reader.dst 0 n = load src 0 n := by
  have hkept := Echo.kept h
  have hsent : acceptedOn c e.service.trace <+: e.writer.sent := by
    rcases hkept.accepted with hbytes | hnone
    · have haccepted : acceptedOn c e.service.trace <+: (e.service.state.conns c).appended :=
        ⟨_, hbytes⟩
      rw [hkept.sent]
      exact haccepted.trans ((ServiceTest.echo_prefix (Reach.untraced_ok hkept.run)).trans
        (List.prefix_append ..))
    · rw [hnone]
      exact List.nil_prefix
  refine ⟨hsent, hkept.settled, fun n hn => ?_⟩
  rw [hkept.reader.loop.counted n hn]
  have hprefix : load e.reader.dst 0 e.reader.loop.counter <+: e.writer.sent :=
    List.IsPrefix.trans ⟨_, hkept.reader.stored⟩ hsent
  rw [hkept.writer.sent] at hprefix
  have htake := List.prefix_iff_eq_take.mp hprefix
  rw [length_load, take_load] at htake
  have hle : e.reader.loop.counter ≤ e.writer.loop.counter := by
    simpa using hprefix.length_le
  rw [htake, Nat.min_eq_left hle]

/-- Two bytes go to the service in one read, come back in two writes, and are read at once. -/
def echoTwo : List EchoLabel :=
  [.write (.moved 1), .write (.moved 1)] ++ acceptOne.map EchoLabel.service ++
    [.service (.act (.io 0) (.read 5 (.data ⟨[7, 8], by decide, by decide⟩)
        (ServiceTest.decode [7, 8]))),
      .service (.act (.io 0) (.process (some [7, 8]))),
      .service (.act (.io 0) (.respond [⟨2, [7, 8], Nat.le_refl 2⟩] (.wrote 1))),
      .service (.act (.io 0) .go), .service (.act (.io 0) (.write 5 (.wrote 1))),
      .read .eintr, .read (.moved 2)]

theorem echo_reads_back_two : ∃ e : Echo, e.reader.loop.ret = some 2 ∧
    load e.reader.dst 0 2 = [7, 8] ∧ acceptedOn 0 e.service.trace <+: e.writer.sent := by
  have hrun : ∃ e : Echo,
      Reach (Echo.step inlineConfig acceptAll 0) (Echo.Runs 0)
          (· = Echo.start (fun i => .ofNat (i + 7)) (fun _ => 0) 2) e ∧
        e.reader.loop.ret = some (2 : Nat) :=
    ⟨_, Reach.play echoTwo (.start rfl) (by decide) rfl, rfl⟩
  obtain ⟨e, hreach, hret⟩ := hrun
  obtain ⟨hsent, -, hread⟩ := echo_reads_back hreach
  exact ⟨e, hret, hread 2 hret, hsent⟩

end Libxv
