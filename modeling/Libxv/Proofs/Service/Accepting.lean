/-
Where the accepted sockets go.

The leader sets up a socket in several calls that may fail, while the other threads close
connections and their fds, and the kernel gives closed fds to the next accept.  The steps of
the leader come to one accept of `Service/Program.lean`, and the open fds are accounted for:
each is that of one connection, the one in the leader's hands, or not the service's.  The only
exception is fd 0, which `on_new_connection` neither uses nor closes.
-/
import Libxv.Service.Accepting
import Libxv.Proofs.Accept
import Libxv.Proofs.Socket
import Libxv.Proofs.Service.Table

namespace Libxv

open Function Transition

variable {P : Type} {cfg : Config} {ctl : EpollCtl} {tcpNodealy : Bool}

/-! ### What a move of the service does to the fds -/

/-- A move of the service other than an accept closes the fd of a connection, or leaves the fds
of all connections as they are. -/
inductive State.FdStep (s : State P) (pc : Pc P) (next : State P) : Prop
  | close (c : Nat) (resume : Resume) (hpc : pc = .closeFd c resume) (hnext : next = s.closeFd c)
  | keep (hpc : ∀ c resume, pc ≠ .closeFd c resume) (hopen : next.openFds = s.openFds)
      (hnext : next.nextConn = s.nextConn)
      (hclosed : ∀ c, c < s.nextConn → (next.conns c).fdClosed = (s.conns c).fdClosed)

theorem Instr.fdStep {s : State P} {a : Agent} {act : Act P} {next : State P} {pc' : Pc P}
    (h : Instr cfg ctl s a (s.pc a) act next pc') (hresting : s.Resting)
    (hact : ∀ fd handle mem, act ≠ .accept fd handle mem) : s.FdStep (s.pc a) next := by
  have hclosed : (∀ c resume, s.pc a ≠ .closeFd c resume) → ∀ c, c < s.nextConn →
      (next.conns c).fdClosed = (s.conns c).fdClosed := by
    intro hpc c hc
    have hstep := h.connStep_of_lt hc
    generalize next.conns c = conn at hstep
    generalize s.pc a = pc at hstep hpc
    cases hstep with
    | fdClosed => exact absurd rfl (hpc c _)
    | _ => rfl
  generalize hpc : s.pc a = pc at h hclosed
  cases h
  case closeFd t c resume => exact .close c resume rfl rfl
  case accept t fd handle mem _ _ => exact absurd rfl (hact fd handle mem)
  case work i thread hrun _ | interrupt i thread hrun _ =>
    obtain rfl := (hresting i hrun).symm.trans hpc
    exact .keep (by simp) rfl rfl (hclosed (by simp))
  all_goals exact .keep (by simp) rfl rfl (hclosed (by simp))

namespace Accepting

variable {x x' : Accepting P}

/-! ### The invariant -/

/-- The socket of a connection is open, has its options set, and is that of the client the
connection names. -/
def Ready (tcpNodealy : Bool) (x : Accepting P) (c : Nat) : Prop :=
  ∃ sock, x.fds (x.service.conns c).conn.fd = some sock ∧ sock.nonblock = true ∧
    (tcpNodealy = true → x.noDelay (x.service.conns c).conn.fd = true) ∧
    ∃ str, x.addr c = some str ∧ sock.connected = some (sockAddrOf str (x.port c))

/-- The options that have been set by the time the leader is here. -/
def Options (tcpNodealy : Bool) (sock : Socket) (noDelay : Bool) : AcceptPc → Prop
  | .nodelay .. => sock.nonblock = true
  | .make .. => sock.nonblock = true ∧ (tcpNodealy = true → noDelay = true)
  | .idle | .accept _ | .nonblock .. => True

/-- The socket in the leader's hands is open, and is that of the client. -/
def SetUp (tcpNodealy : Bool) (x : Accepting P) (client : Client) : Prop :=
  ∃ sock, x.fds client.fd = some sock ∧ Options tcpNodealy sock (x.noDelay client.fd) x.pc ∧
    ∃ str, client.addr = some str ∧ strncpy str xvAddrLen = some str ∧
      sock.connected = some (sockAddrOf str client.port)

structure Kept (cfg : Config) (tcpNodealy : Bool) (ctl : EpollCtl) (x : Accepting P) : Prop where
  reach : Reachable (State.step cfg ctl) (· = State.init) x.service
  polling : x.pc.busy = true → x.service.pc (.io 0) = .poll
  /-- Whose the open fds are. -/
  open_iff : ∀ fd, 0 < fd → ((x.fds fd).isSome = true ↔
    x.service.openFds fd = true ∨ x.others fd = true ∨ ∃ client, x.pc.client = some client ∧
      client.fd = fd)
  /-- No fd belongs to two. -/
  hands : ∀ client, x.pc.client = some client →
    0 < client.fd ∧ x.service.openFds client.fd = false ∧ x.others client.fd = false
  apart : ∀ fd, x.service.openFds fd = true → 0 < fd ∧ x.others fd = false
  owned : ∀ fd, x.service.openFds fd = true → ∃ c, c < x.service.nextConn ∧
    (x.service.conns c).fdClosed = 0 ∧ (x.service.conns c).conn.fd = fd
  setUp : ∀ client, x.pc.client = some client → x.SetUp tcpNodealy client
  ready : ∀ c, c < x.service.nextConn → (x.service.conns c).fdClosed = 0 → x.Ready tcpNodealy c

theorem Kept.start (h : Start x) : x.Kept cfg tcpNodealy ctl := by
  refine ⟨.start h.service, ?_, fun fd _ => ?_, ?_, ?_, ?_, ?_, ?_⟩
  · simp [h.pc, AcceptPc.busy]
  · simp [h.fds fd, h.service, State.init, h.pc, AcceptPc.client]
  · simp [h.pc, AcceptPc.client]
  · simp [h.service, State.init]
  · simp [h.service, State.init]
  · simp [h.pc, AcceptPc.client]
  · simp [h.service, State.init]

/-- A step beside the service, which leaves the fds of all connections alone. -/
theorem Kept.beside (h : x.Kept cfg tcpNodealy ctl) (hservice : x'.service = x.service)
    (haddr : x'.addr = x.addr) (hport : x'.port = x.port)
    (hpolling : x'.pc.busy = true → x.service.pc (.io 0) = .poll)
    (hfds : ∀ fd, x.service.openFds fd = true →
      x'.fds fd = x.fds fd ∧ x'.noDelay fd = x.noDelay fd ∧ x'.others fd = false)
    (hopen : ∀ fd, 0 < fd → ((x'.fds fd).isSome = true ↔
      x.service.openFds fd = true ∨ x'.others fd = true ∨ ∃ client, x'.pc.client = some client ∧
        client.fd = fd))
    (hhands : ∀ client, x'.pc.client = some client →
      0 < client.fd ∧ x.service.openFds client.fd = false ∧ x'.others client.fd = false ∧
        x'.SetUp tcpNodealy client) : x'.Kept cfg tcpNodealy ctl := by
  refine ⟨?_, ?_, ?_, ?_, ?_, ?_, ?_, ?_⟩
  · rw [hservice]
    exact h.reach
  · rw [hservice]
    exact hpolling
  · rw [hservice]
    exact hopen
  · intro client hclient
    rw [hservice]
    obtain ⟨hpos, hclosed, hothers, -⟩ := hhands client hclient
    exact ⟨hpos, hclosed, hothers⟩
  · intro fd hfd
    rw [hservice] at hfd
    exact ⟨(h.apart fd hfd).1, (hfds fd hfd).2.2⟩
  · rw [hservice]
    exact h.owned
  · exact fun client hclient => (hhands client hclient).2.2.2
  · intro c hc hclosed
    rw [hservice] at hc hclosed
    have hfd := (State.listed h.reach).opened c hc hclosed
    obtain ⟨sock, hsock, hnonblock, hnodelay, hnames⟩ := h.ready c hc hclosed
    obtain ⟨hsame, hsame', -⟩ := hfds _ hfd
    unfold Ready
    rw [hservice, haddr, hport, hsame, hsame']
    exact ⟨sock, hsock, hnonblock, hnodelay, hnames⟩

/-- `epoll_wait` reports the listener, or `accept` fails. -/
theorem Kept.ready_step (h : x.Kept cfg tcpNodealy ctl) {pc : AcceptPc}
    (hbefore : x.pc.client = none) (hafter : pc.client = none)
    (hpoll : pc.busy = true → x.service.pc (.io 0) = .poll) :
    Kept cfg tcpNodealy ctl { x with pc := pc } := by
  refine h.beside rfl rfl rfl hpoll (fun fd hfd => ⟨rfl, rfl, (h.apart fd hfd).2⟩) ?_ ?_
  · intro fd hpos
    have hopen := h.open_iff fd hpos
    rw [hbefore] at hopen
    simpa [hafter] using hopen
  · simp [hafter]

/-- An fd that is not open is nobody's. -/
theorem Kept.closed (h : x.Kept cfg tcpNodealy ctl) {fd : Nat} (hpos : 0 < fd)
    (hfd : x.fds fd = none) : x.service.openFds fd = false ∧ x.others fd = false ∧
      ∀ client, x.pc.client = some client → client.fd ≠ fd := by
  have hopen := (h.open_iff fd hpos).not
  simp only [hfd, Option.isSome_none, Bool.false_eq_true, not_false_eq_true, true_iff, not_or,
    Bool.not_eq_true, not_exists, not_and] at hopen
  exact hopen

/-- `accept` returns a client on an fd that `on_new_connection` goes on with. -/
theorem Kept.accept_client (h : x.Kept cfg tcpNodealy ctl) {handle : Handle} {fd : Nat}
    {sa : SockAddr} (hpc : x.pc = .accept handle) (hfree : x.fds fd = none) (hpos : 0 < fd) :
    Kept cfg tcpNodealy ctl
      { x.opens (.client fd sa) with
        pc := .nonblock handle
          { fd := fd, addr := inetNtop sa.sinAddr xvAddrLen, port := ntohs sa.sinPort } } := by
  obtain ⟨hclosed, hothers, -⟩ := h.closed hpos hfree
  have hne : ∀ fd', x.service.openFds fd' = true → fd' ≠ fd := by
    rintro fd' hfd' rfl
    rw [hclosed] at hfd'
    exact absurd hfd' (by decide)
  refine h.beside rfl rfl rfl (fun _ => h.polling (by rw [hpc]; rfl)) ?_ ?_ ?_
  · intro fd' hfd'
    exact ⟨update_of_ne (hne fd' hfd') .., update_of_ne (hne fd' hfd') .., (h.apart fd' hfd').2⟩
  · intro fd' hpos'
    by_cases heq : fd' = fd
    · subst heq
      simp [opens, AcceptPc.client]
    · have hopen := h.open_iff fd' hpos'
      rw [hpc] at hopen
      simpa [opens, Fds.set, update_of_ne heq, AcceptPc.client, Ne.symm heq] using hopen
  · intro client hclient
    obtain rfl := Option.some.inj hclient
    refine ⟨hpos, hclosed, hothers, { connected := some sa }, by simp [opens], trivial, ?_⟩
    obtain ⟨str, hstr, hcopy, hread⟩ := sockAddrOf_client sa xvAddrLen (by decide)
    exact ⟨str, hstr, hcopy, congrArg some hread.symm⟩

/-- `on_new_connection` leaves fd 0 open, and to itself. -/
theorem Kept.accept_zero (h : x.Kept cfg tcpNodealy ctl) {handle : Handle} {sa : SockAddr}
    (hpc : x.pc = .accept handle) :
    Kept cfg tcpNodealy ctl { x.opens (.client 0 sa) with pc := .idle } := by
  refine h.beside rfl rfl rfl (by simp [AcceptPc.busy]) ?_ ?_ (by simp [AcceptPc.client])
  · intro fd hfd
    have hne := Nat.ne_of_gt (h.apart fd hfd).1
    exact ⟨update_of_ne hne .., update_of_ne hne .., (h.apart fd hfd).2⟩
  · intro fd hpos
    have hopen := h.open_iff fd hpos
    rw [hpc] at hopen
    simpa [opens, Fds.set, update_of_ne (Nat.ne_of_gt hpos), AcceptPc.client] using hopen

/-- The leader closes the fd it has in its hands. -/
theorem Kept.refuse (h : x.Kept cfg tcpNodealy ctl) {client : Client}
    (hclient : x.pc.client = some client) : (x.refuse client.fd).Kept cfg tcpNodealy ctl := by
  obtain ⟨hpos, hclosed, hothers⟩ := h.hands client hclient
  refine h.beside rfl rfl rfl (by simp [Accepting.refuse, AcceptPc.busy]) ?_ ?_ ?_
  · intro fd hfd
    have hne : fd ≠ client.fd := by
      rintro rfl
      rw [hclosed] at hfd
      exact absurd hfd (by decide)
    exact ⟨update_of_ne hne .., rfl, (h.apart fd hfd).2⟩
  · intro fd hpos'
    by_cases heq : fd = client.fd
    · subst heq
      simp [Accepting.refuse, xvClose, AcceptPc.client, hclosed, hothers]
    · have hopen := h.open_iff fd hpos'
      rw [hclient] at hopen
      simpa [Accepting.refuse, xvClose, Fds.set, update_of_ne heq, AcceptPc.client, Ne.symm heq]
        using hopen
  · simp [Accepting.refuse, AcceptPc.client]

/-- The leader goes on with the fd it has in its hands, having set an option. -/
theorem Kept.advance (h : x.Kept cfg tcpNodealy ctl) {client : Client} {pc : AcceptPc}
    {fds : Fds} {noDelay : NoDelay} (hbefore : x.pc.client = some client)
    (hafter : pc.client = some client) (hbusy : x.pc.busy = true)
    (hfds : ∀ fd, fd ≠ client.fd → fds fd = x.fds fd)
    (hnoDelay : ∀ fd, fd ≠ client.fd → noDelay fd = x.noDelay fd)
    (hset : ∀ sock, x.fds client.fd = some sock →
      Options tcpNodealy sock (x.noDelay client.fd) x.pc →
      ∃ sock', fds client.fd = some sock' ∧ sock'.connected = sock.connected ∧
        Options tcpNodealy sock' (noDelay client.fd) pc) :
    Kept cfg tcpNodealy ctl { x with fds := fds, noDelay := noDelay, pc := pc } := by
  obtain ⟨hpos, hclosed, hothers⟩ := h.hands client hbefore
  obtain ⟨sock, hsock, hoptions, str, hstr, hcopy, hnames⟩ := h.setUp client hbefore
  obtain ⟨sock', hsock', hconnected, hoptions'⟩ := hset sock hsock hoptions
  refine h.beside rfl rfl rfl (fun _ => h.polling hbusy) ?_ ?_ ?_
  · intro fd hfd
    have hne : fd ≠ client.fd := by
      rintro rfl
      rw [hclosed] at hfd
      exact absurd hfd (by decide)
    exact ⟨hfds fd hne, hnoDelay fd hne, (h.apart fd hfd).2⟩
  · intro fd hpos'
    have hopen := h.open_iff fd hpos'
    rw [hbefore] at hopen
    dsimp only
    rw [hafter]
    by_cases heq : fd = client.fd
    · subst heq
      simp [hsock']
    · rw [hfds fd heq]
      exact hopen
  · intro client' hclient'
    obtain rfl := Option.some.inj (hafter.symm.trans hclient')
    exact ⟨hpos, hclosed, hothers, sock', hsock', hoptions', str, hstr, hcopy,
      hconnected.trans hnames⟩

/-- `xv_nonblock` sets the option, or the socket is closed. -/
theorem Kept.nonblock_step (h : x.Kept cfg tcpNodealy ctl) {handle : Handle} {client : Client}
    (hpc : x.pc = .nonblock handle client) {getfl setfl : Bool}
    (hstep : (if (xvNonblock x.fds client.fd getfl setfl).1 ≠ xvOk then
        some ({ x with fds := (xvNonblock x.fds client.fd getfl setfl).2 }.refuse client.fd)
      else if tcpNodealy = true then
        some { x with
          fds := (xvNonblock x.fds client.fd getfl setfl).2, pc := .nodelay handle client }
      else
        some { x with
          fds := (xvNonblock x.fds client.fd getfl setfl).2, pc := .make handle client }) =
      some x') : x'.Kept cfg tcpNodealy ctl := by
  have hclient : x.pc.client = some client := by rw [hpc]; rfl
  have hbusy : x.pc.busy = true := by rw [hpc]; rfl
  by_cases hcalls : getfl = true ∧ setfl = true
  · obtain ⟨rfl, rfl⟩ := hcalls
    have hset : ∀ sock, x.fds client.fd = some sock →
        (x.fds.modify client.fd fun s => { s with nonblock := true }) client.fd =
          some { sock with nonblock := true } := fun sock hsock => by simp [Fds.modify, hsock]
    simp only [xvNonblock, if_true, ne_eq, not_true_eq_false, if_false] at hstep
    split at hstep
    · obtain rfl := Option.some.inj hstep
      refine h.advance hclient rfl hbusy (fun fd hne => update_of_ne hne ..) (fun _ _ => rfl) ?_
      exact fun sock hsock _ => ⟨_, hset sock hsock, rfl, rfl⟩
    · rename_i hno
      obtain rfl := Option.some.inj hstep
      refine h.advance hclient rfl hbusy (fun fd hne => update_of_ne hne ..) (fun _ _ => rfl) ?_
      exact fun sock hsock _ => ⟨_, hset sock hsock, rfl, rfl, fun hyes => absurd hyes hno⟩
  · have hfail : xvNonblock x.fds client.fd getfl setfl = (xvErr, x.fds) := by
      unfold xvNonblock
      cases getfl <;> cases setfl <;> simp_all
    simp only [hfail] at hstep
    obtain rfl := Option.some.inj hstep
    exact h.refuse hclient

/-- `xv_tcp_nodelay` sets the option, or the socket is closed. -/
theorem Kept.nodelay_step (h : x.Kept cfg tcpNodealy ctl) {handle : Handle} {client : Client}
    (hpc : x.pc = .nodelay handle client) {setsockopt : Bool}
    (hstep : (if (xvTcpNodelay x.noDelay client.fd setsockopt).1 ≠ xvOk then
        some ({ x with noDelay := (xvTcpNodelay x.noDelay client.fd setsockopt).2 }.refuse
          client.fd)
      else
        some { x with
          noDelay := (xvTcpNodelay x.noDelay client.fd setsockopt).2, pc := .make handle client }) =
      some x') : x'.Kept cfg tcpNodealy ctl := by
  have hclient : x.pc.client = some client := by rw [hpc]; rfl
  have hbusy : x.pc.busy = true := by rw [hpc]; rfl
  cases setsockopt with
  | true =>
      obtain rfl := Option.some.inj hstep
      refine h.advance hclient rfl hbusy (fun _ _ => rfl) (fun fd hne => update_of_ne hne ..) ?_
      intro sock hsock hoptions
      rw [hpc] at hoptions
      exact ⟨sock, hsock, rfl, hoptions, fun _ => update_self ..⟩
  | false =>
      obtain rfl := Option.some.inj hstep
      exact h.refuse hclient

/-- Other code opens an fd. -/
theorem Kept.openFd (h : x.Kept cfg tcpNodealy ctl) {fd : Nat} (hfree : x.fds fd = none) :
    Kept cfg tcpNodealy ctl
      { x with fds := x.fds.set fd (some {}), others := update x.others fd true } := by
  have hne : ∀ fd', x.service.openFds fd' = true → fd' ≠ fd := by
    rintro fd' hfd' rfl
    rw [(h.closed (h.apart fd' hfd').1 hfree).1] at hfd'
    exact absurd hfd' (by decide)
  refine h.beside rfl rfl rfl h.polling ?_ ?_ ?_
  · intro fd' hfd'
    exact ⟨update_of_ne (hne fd' hfd') .., rfl,
      (update_of_ne (hne fd' hfd') ..).trans (h.apart fd' hfd').2⟩
  · intro fd' hpos
    by_cases heq : fd' = fd
    · subst heq
      simp
    · simpa [Fds.set, update_of_ne heq] using h.open_iff fd' hpos
  · intro client hclient
    obtain ⟨hpos, hclosed, hothers⟩ := h.hands client hclient
    have hne' : client.fd ≠ fd := by
      rintro rfl
      exact (h.closed hpos hfree).2.2 client hclient rfl
    refine ⟨hpos, hclosed, (update_of_ne hne' ..).trans hothers, ?_⟩
    obtain ⟨sock, hsock, hrest⟩ := h.setUp client hclient
    exact ⟨sock, (update_of_ne hne' ..).trans hsock, hrest⟩

/-- Other code closes an fd of its own. -/
theorem Kept.closeFd (h : x.Kept cfg tcpNodealy ctl) {fd : Nat} (hfd : x.others fd = true) :
    Kept cfg tcpNodealy ctl
      { x with fds := xvClose x.fds fd, others := update x.others fd false } := by
  have hne : ∀ fd', x.others fd' = false → fd' ≠ fd := by
    rintro fd' hfd' rfl
    rw [hfd] at hfd'
    exact absurd hfd' (by decide)
  refine h.beside rfl rfl rfl h.polling ?_ ?_ ?_
  · intro fd' hfd'
    have hothers := (h.apart fd' hfd').2
    exact ⟨update_of_ne (hne fd' hothers) .., rfl,
      (update_of_ne (hne fd' hothers) ..).trans hothers⟩
  · intro fd' hpos
    by_cases heq : fd' = fd
    · subst heq
      have hnot : x.service.openFds fd' ≠ true := fun hopen => hne fd' (h.apart fd' hopen).2 rfl
      have hhands : ∀ client, x.pc.client = some client → client.fd ≠ fd' :=
        fun client hclient => hne client.fd (h.hands client hclient).2.2
      simpa [xvClose, hnot] using hhands
    · simpa [xvClose, Fds.set, update_of_ne heq] using h.open_iff fd' hpos
  · intro client hclient
    obtain ⟨hpos, hclosed, hothers⟩ := h.hands client hclient
    refine ⟨hpos, hclosed, (update_of_ne (hne _ hothers) ..).trans hothers, ?_⟩
    obtain ⟨sock, hsock, hrest⟩ := h.setUp client hclient
    exact ⟨sock, (update_of_ne (hne _ hothers) ..).trans hsock, hrest⟩

/-- The steps of the leader come to one accept of the service. -/
theorem accept_step {s : State P} (hpc : s.pc (.io 0) = .poll) {fd : Nat} (hpos : 0 < fd)
    (hfd : s.openFds fd = false) (handle : Handle) (mem : Nat → UInt8) :
    s.step cfg ctl (.act (.io 0) (.accept fd handle mem)) =
      some ((s.accept fd handle mem).goto (.io 0) (.addConnection s.nextConn)) := by
  have hruns : (Agent.io 0).runs cfg = true := decide_eq_true cfg.ioPos
  have hsafe : s.safe (.io 0) = true := by simp [State.safe, hpc, Pc.touches]
  have hprogram : s.program cfg ctl (.io 0) (.accept fd handle mem) =
      some (s.accept fd handle mem, .addConnection s.nextConn) := by
    simp [State.program, ioStep, hpc, ioThreadEntry, xvConnectionClose, State.processMessage,
      State.processReadBuffer, State.onConnectionRead, State.onConnectionWrite, onNewConnection,
      hpos, hfd]
  simp [State.step, hruns, hsafe, hprogram]

/-- The connection is made: the fd passes from the leader's hands to it. -/
theorem Kept.make (h : x.Kept cfg tcpNodealy ctl) {handle : Handle} {client : Client}
    (hpc : x.pc = .make handle client) (mem : Nat → UInt8) :
    (x.connectionInit handle client mem).Kept cfg tcpNodealy ctl := by
  have hclient : x.pc.client = some client := by rw [hpc]; rfl
  obtain ⟨hpos, hclosed, hothers⟩ := h.hands client hclient
  obtain ⟨sock, hsock, hoptions, str, hstr, hcopy, hnames⟩ := h.setUp client hclient
  have hpoll := h.polling (by rw [hpc]; rfl)
  have hnew : (x.connectionInit handle client mem).service.conns x.service.nextConn =
      { conn := xvConnectionInit client.fd handle x.service.nextConn x.service.nextConn mem
        userRefs := 0, received := [], appended := [], deleted := 0, fdClosed := 0, freed := 0 } :=
    update_self ..
  have hold : ∀ c, c < x.service.nextConn →
      (x.connectionInit handle client mem).service.conns c = x.service.conns c :=
    fun c hc => update_of_ne (Nat.ne_of_lt hc) ..
  have hopened : ∀ fd, (x.connectionInit handle client mem).service.openFds fd =
      if fd = client.fd then true else x.service.openFds fd := fun fd => update_apply ..
  have hcases : ∀ c, c < (x.connectionInit handle client mem).service.nextConn →
      c < x.service.nextConn ∨ c = x.service.nextConn := fun c hc => Nat.lt_succ_iff_lt_or_eq.mp hc
  refine ⟨?_, ?_, fun fd hfd => ?_, ?_, fun fd hfd => ?_, fun fd hfd => ?_, ?_,
    fun c hc hzero => ?_⟩
  · exact .next h.reach trivial (accept_step hpoll hpos hclosed handle mem)
  · simp [connectionInit, AcceptPc.busy]
  · rw [hopened]
    have hopen := h.open_iff fd hfd
    rw [hclient] at hopen
    by_cases heq : fd = client.fd
    · subst heq
      simp [connectionInit, hsock]
    · simpa [connectionInit, AcceptPc.client, heq, Ne.symm heq] using hopen
  · simp [connectionInit, AcceptPc.client]
  · rw [hopened] at hfd
    split at hfd
    · rename_i heq
      subst heq
      exact ⟨hpos, hothers⟩
    · exact h.apart fd hfd
  · rw [hopened] at hfd
    split at hfd
    · rename_i heq
      subst heq
      exact ⟨x.service.nextConn, Nat.lt_succ_self _, by rw [hnew], by rw [hnew]; rfl⟩
    · obtain ⟨c, hc, hzero, hcfd⟩ := h.owned fd hfd
      exact ⟨c, Nat.lt_succ_of_lt hc, by rw [hold c hc]; exact hzero, by rw [hold c hc]; exact hcfd⟩
  · simp [connectionInit, AcceptPc.client]
  · rcases hcases c hc with hlt | rfl
    · rw [hold c hlt] at hzero
      obtain ⟨sock, hsock, hnonblock, hnodelay, str, hstr, hnames⟩ := h.ready c hlt hzero
      have hne := Nat.ne_of_lt hlt
      unfold Ready
      rw [hold c hlt]
      exact ⟨sock, hsock, hnonblock, hnodelay, str, (update_of_ne hne ..).trans hstr, by
        rw [hnames]; simp [connectionInit, update_of_ne hne]⟩
    · rw [hpc] at hoptions
      unfold Ready
      rw [hnew]
      exact ⟨sock, hsock, hoptions.1, hoptions.2, str, by simp [connectionInit, hstr, hcopy], by
        rw [hnames]; simp [connectionInit]⟩

/-- What a move of the service leaves of the fds of the process: it closes that of one
connection, or none. -/
structure Moved (x : Accepting P) (s : State P) (fds : Fds) (closing : Option Nat) : Prop where
  nextConn : s.nextConn = x.service.nextConn
  fd : ∀ c, c < x.service.nextConn → (s.conns c).conn.fd = (x.service.conns c).conn.fd
  closes : ∀ c, closing = some c → c < x.service.nextConn ∧ (x.service.conns c).fdClosed = 0 ∧
    (s.conns c).fdClosed ≠ 0
  closed : ∀ c, c < x.service.nextConn → closing ≠ some c →
    (s.conns c).fdClosed = (x.service.conns c).fdClosed
  openFds : ∀ fd, s.openFds fd = if closing.map (fun c => (x.service.conns c).conn.fd) = some fd
    then false else x.service.openFds fd
  fds : ∀ fd, fds fd = if closing.map (fun c => (x.service.conns c).conn.fd) = some fd
    then none else x.fds fd

theorem Kept.moved (h : x.Kept cfg tcpNodealy ctl) {label : Label P} {s : State P}
    (hstep : x.service.step cfg ctl label = some s) (haccepts : label.accepts = false) :
    ∃ closing, x.Moved s (x.fdsAfter label) closing := by
  have hsound := State.sound h.reach
  have hlisted := State.listed h.reach
  have hrefs : ∀ s : State P, x.service.SameButRefs s → s.openFds = x.service.openFds →
      x.Moved s x.fds none := by
    intro s hsame hopen
    refine ⟨hsame.nextConn, fun c _ => ?_, by simp, fun c _ _ => ?_, by simp [hopen], by simp⟩
    · obtain ⟨refCount, userRefs, hconn⟩ := hsame.conns c
      rw [hconn]
    · obtain ⟨refCount, userRefs, hconn⟩ := hsame.conns c
      rw [hconn]
  rcases State.step_cases hstep with ⟨a, act, next, pc, rfl, hsafe, -, hinstr, rfl⟩ |
      ⟨c, rfl, -, rfl⟩ | ⟨c, rfl, -, -, rfl⟩
  · have hact : ∀ fd handle mem, act ≠ .accept fd handle mem := by
      rintro fd handle mem rfl
      simp [Label.accepts] at haccepts
    have hfd : ∀ c, c < x.service.nextConn →
        (next.conns c).conn.fd = (x.service.conns c).conn.fd := fun c hc => (hinstr.kept hc).fd
    cases hinstr.fdStep hsound.owned.resting hact with
    | close c resume hpc hnext =>
        have halive := State.safe_alive hsafe (c := c) (by rw [hpc]; rfl)
        have hphase := hlisted.phase a c (1, 0) (by rw [hpc]; rfl)
        refine ⟨some c, ?_⟩
        subst hnext
        refine ⟨rfl, hfd, ?_, fun c' _ hne => ?_, fun fd => ?_, fun fd => ?_⟩
        · intro c' hc'
          obtain rfl := Option.some.inj hc'
          refine ⟨State.lt_of_alive halive, (Prod.mk.inj hphase).2, ?_⟩
          simp [State.goto, State.closeFd]
        · have hne' : c' ≠ c := fun heq => hne (by rw [heq])
          simp [State.goto, State.closeFd, update_of_ne hne']
        · simp [State.goto, State.closeFd, update_apply, eq_comm]
        · simp [fdsAfter, hpc, xvClose, Fds.set, update_apply, eq_comm]
    | keep hpc hopen hnext hclosed =>
        have hfds : x.fdsAfter (.act a act) = x.fds := by
          unfold fdsAfter
          dsimp only
          split
          · exact absurd ‹_› (hpc _ _)
          · rfl
        refine ⟨none, hnext, hfd, by simp, fun c hc _ => hclosed c hc, fun fd => ?_, fun fd => ?_⟩
        · simp [State.goto, hopen]
        · simp [hfds]
  · exact ⟨none, hrefs _ (x.service.incrRef_same c) rfl⟩
  · exact ⟨none, hrefs _ (x.service.decrRef_same c) rfl⟩

/-- A thread other than the leader moves, or the leader outside this part of its callback. -/
theorem Kept.service_step (h : x.Kept cfg tcpNodealy ctl) {label : Label P} {s : State P}
    (hstep : x.service.step cfg ctl label = some s) (haccepts : label.accepts = false)
    (hleads : x.pc.busy = true → label.leads = false) :
    Kept cfg tcpNodealy ctl { x with service := s, fds := x.fdsAfter label } := by
  obtain ⟨closing, hmoved⟩ := h.moved hstep haccepts
  have hlisted := State.listed h.reach
  have hclosing : ∀ fd, closing.map (fun c => (x.service.conns c).conn.fd) = some fd →
      x.service.openFds fd = true := by
    intro fd hfd
    obtain ⟨c, hc, rfl⟩ := Option.map_eq_some_iff.mp hfd
    obtain ⟨hlt, hzero, -⟩ := hmoved.closes c hc
    exact hlisted.opened c hlt hzero
  have hkept : ∀ fd, x.service.openFds fd = false → x.fdsAfter label fd = x.fds fd := by
    intro fd hfd
    rw [hmoved.fds, if_neg]
    intro heq
    rw [hclosing fd heq] at hfd
    exact absurd hfd (by decide)
  have hopened : ∀ fd, s.openFds fd = true → x.service.openFds fd = true := by
    intro fd hfd
    rw [hmoved.openFds] at hfd
    split at hfd
    · exact absurd hfd (by decide)
    · exact hfd
  refine ⟨.next h.reach trivial hstep, fun hbusy => ?_, fun fd hpos => ?_, fun client hclient => ?_,
    fun fd hfd => h.apart fd (hopened fd hfd), fun fd hfd => ?_, fun client hclient => ?_,
    fun c hc hzero => ?_⟩
  · have hpoll := h.polling hbusy
    have hother := hleads hbusy
    rcases State.step_cases hstep with ⟨a, act, next, pc, rfl, -, -, hinstr, rfl⟩ |
        ⟨c, rfl, -, rfl⟩ | ⟨c, rfl, -, -, rfl⟩
    · have hne : Agent.io 0 ≠ a := by
        rintro rfl
        simp [Label.leads] at hother
      exact (State.goto_pc_of_ne _ _ hne).trans (by rw [hinstr.pc_eq]; exact hpoll)
    · exact hpoll
    · exact hpoll
  · dsimp only
    rw [hmoved.fds, hmoved.openFds]
    split
    · rename_i heq
      have hopen := hclosing fd heq
      have hothers := (h.apart fd hopen).2
      have hhands : ∀ client, x.pc.client = some client → client.fd ≠ fd := by
        rintro client hclient rfl
        rw [(h.hands client hclient).2.1] at hopen
        exact absurd hopen (by decide)
      simpa [hothers] using hhands
    · exact h.open_iff fd hpos
  · obtain ⟨hpos, hclosed, hothers⟩ := h.hands client hclient
    refine ⟨hpos, ?_, hothers⟩
    dsimp only
    rw [hmoved.openFds, hclosed, ite_self]
  · have hopen := hfd
    rw [hmoved.openFds] at hopen
    split at hopen
    · exact absurd hopen (by decide)
    · rename_i hne
      obtain ⟨c, hc, hzero, hcfd⟩ := h.owned fd hopen
      have hnot : closing ≠ some c := by
        rintro rfl
        exact hne (congrArg some hcfd)
      dsimp only
      exact ⟨c, hmoved.nextConn.symm ▸ hc, (hmoved.closed c hc hnot).trans hzero,
        (hmoved.fd c hc).trans hcfd⟩
  · obtain ⟨sock, hsock, hrest⟩ := h.setUp client hclient
    exact ⟨sock, (hkept _ (h.hands client hclient).2.1).trans hsock, hrest⟩
  · dsimp only at hc hzero
    rw [hmoved.nextConn] at hc
    have hnot : closing ≠ some c := fun heq => (hmoved.closes c heq).2.2 hzero
    rw [hmoved.closed c hc hnot] at hzero
    obtain ⟨sock, hsock, hrest⟩ := h.ready c hc hzero
    have hne : closing.map (fun c => (x.service.conns c).conn.fd) ≠
        some (x.service.conns c).conn.fd := by
      intro heq
      obtain ⟨c', hc', hfd⟩ := Option.map_eq_some_iff.mp heq
      obtain ⟨hlt, hzero', -⟩ := hmoved.closes c' hc'
      exact hnot (hc'.trans (congrArg some (hlisted.apart c' c hlt hc hzero' hzero hfd)))
    unfold Ready
    dsimp only
    rw [hmoved.fd c hc, hmoved.fds, if_neg hne]
    exact ⟨sock, hsock, hrest⟩

/-! ### Every run -/

theorem Kept.step (h : x.Kept cfg tcpNodealy ctl) {label : AcceptLabel P}
    (hstep : x.step cfg tcpNodealy ctl label = some x') : x'.Kept cfg tcpNodealy ctl := by
  cases label with
  | service label =>
      simp only [Accepting.step, Option.ite_none_left_eq_some, Bool.or_eq_true, Bool.and_eq_true,
        not_or, not_and, Option.map_eq_some_iff] at hstep
      obtain ⟨⟨haccepts, hleads⟩, s, hs, rfl⟩ := hstep
      refine h.service_step hs (by simpa using haccepts) fun hbusy => ?_
      by_contra hlead
      exact hleads (by simpa using hlead) hbusy
  | ready handle =>
      simp only [Accepting.step] at hstep
      split at hstep
      · rename_i hpc hpoll
        obtain rfl := Option.some.inj hstep
        exact h.ready_step (by rw [hpc]; rfl) rfl fun _ => hpoll
      · cases hstep
  | accept out =>
      simp only [Accepting.step] at hstep
      split at hstep
      · rename_i handle hpc
        simp only [Option.ite_none_right_eq_some] at hstep
        obtain ⟨hfits, hstep⟩ := hstep
        cases out with
        | interrupted =>
            obtain rfl := Option.some.inj hstep
            exact h
        | error =>
            obtain rfl := Option.some.inj hstep
            exact h.ready_step (by rw [hpc]; rfl) rfl (by simp [AcceptPc.busy])
        | client fd sa =>
            obtain rfl := Option.some.inj hstep
            have hfree : x.fds fd = none := by simpa [fits] using hfits
            by_cases hpos : 0 < fd
            · simp only [accepted, hpos, if_true]
              exact h.accept_client hpc hfree hpos
            · obtain rfl : fd = 0 := by omega
              exact h.accept_zero hpc
      · cases hstep
  | nonblock getfl setfl =>
      simp only [Accepting.step] at hstep
      split at hstep
      · rename_i handle client hpc
        exact h.nonblock_step hpc hstep
      · cases hstep
  | nodelay setsockopt =>
      simp only [Accepting.step] at hstep
      split at hstep
      · rename_i handle client hpc
        exact h.nodelay_step hpc hstep
      · cases hstep
  | make mem =>
      simp only [Accepting.step] at hstep
      split at hstep
      · rename_i handle client hpc
        obtain rfl := Option.some.inj hstep
        exact h.make hpc mem
      · cases hstep
  | openFd fd =>
      simp only [Accepting.step, Option.ite_none_right_eq_some, Option.some.injEq] at hstep
      obtain ⟨hfree, rfl⟩ := hstep
      exact h.openFd (by simpa using hfree)
  | closeFd fd =>
      simp only [Accepting.step, Option.ite_none_right_eq_some, Option.some.injEq] at hstep
      obtain ⟨hfd, rfl⟩ := hstep
      exact h.closeFd hfd

theorem kept (h : Reachable (Accepting.step cfg tcpNodealy ctl) Start x) :
    x.Kept cfg tcpNodealy ctl :=
  h.invariant (I := Kept cfg tcpNodealy ctl) (fun _ hx => .start hx) fun _ _ _ hx _ hstep =>
    hx.step hstep

end Accepting

/-- **Accepted sockets are set up before they are used, and none is lost but fd 0.**  Whatever
`accept`, `fcntl` and `setsockopt` answer and whatever other threads and other code do in
between, the service runs as if a connection were accepted in one step; every open fd other than
0 is that of one connection whose fd is not closed, or not the service's, or in the leader's
hands; and the socket of such a connection is open, non-blocking, has `TCP_NODELAY` set if that
is configured, and is that of the client which `xv_connection_get_addr` and
`xv_connection_get_port` name. -/
theorem accepted_sockets {x : Accepting P}
    (h : Reachable (Accepting.step cfg tcpNodealy ctl) Accepting.Start x) :
    Reachable (State.step cfg ctl) (· = State.init) x.service ∧
      (∀ fd, 0 < fd → ((x.fds fd).isSome = true ↔
        (∃ c, c < x.service.nextConn ∧ (x.service.conns c).fdClosed = 0 ∧
          (x.service.conns c).conn.fd = fd) ∨ x.others fd = true ∨
        ∃ client, x.pc.client = some client ∧ client.fd = fd)) ∧
      ∀ c, c < x.service.nextConn → (x.service.conns c).fdClosed = 0 → x.Ready tcpNodealy c := by
  have hkept := Accepting.kept h
  refine ⟨hkept.reach, fun fd hpos => ?_, hkept.ready⟩
  rw [hkept.open_iff fd hpos]
  refine or_congr_left ⟨hkept.owned fd, ?_⟩
  rintro ⟨c, hc, hzero, rfl⟩
  exact (State.listed hkept.reach).opened c hc hzero

/-- `accept` is interrupted once, then returns a client. -/
theorem accepted_sockets_loopback : ∃ x : Accepting Unit,
    Reachable (Accepting.step inlineConfig true acceptAll) Accepting.Start x ∧
      x.service.nextConn = 1 ∧ x.addr 0 = some "127.0.0.1" ∧ x.port 0 = 9000 ∧
      x.Ready true 0 := by
  let moves : List (AcceptLabel Unit) :=
    [.service (.act (.io 0) .go), .ready fullHandle, .accept .interrupted,
      .accept (.client 5 ⟨9000, ⟨#v[127, 0, 0, 1]⟩⟩), .nonblock true true, .nodelay true,
      .make fun _ => 0]
  let start : Accepting Unit :=
    { service := State.init, pc := .idle, fds := fun _ => none, noDelay := fun _ => false,
      others := fun _ => false, addr := fun _ => none, port := fun _ => 0 }
  have hstart : Accepting.Start start := ⟨rfl, rfl, fun _ => rfl⟩
  have hplay : ∃ x, Transition.play (Accepting.step inlineConfig true acceptAll) start moves =
      some x ∧ x.service.nextConn = 1 ∧ (x.service.conns 0).fdClosed = 0 ∧
      x.addr 0 = some "127.0.0.1" ∧ x.port 0 = 9000 := ⟨_, rfl, rfl, rfl, rfl, rfl⟩
  obtain ⟨x, hx, hcount, hclosed, haddr, hport⟩ := hplay
  have hreach := Reachable.play moves (.start hstart) hx
  exact ⟨x, hreach, hcount, haddr, hport,
    (accepted_sockets hreach).2.2 0 (hcount.symm ▸ Nat.one_pos) hclosed⟩

end Libxv
