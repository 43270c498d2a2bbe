/-
What setting up a socket leaves behind.

`xv_socket` accounts for its fd: it closes what it opened when it fails.  The functions that
call it do so only as long as `xv_nonblock` may fail, and not after `bind`, `listen` and
`connect`, where the socket stays open and its number is lost.  `inet_pton` answers 0 for a
string it cannot read and a negative number only for an unknown family, so the test `< 0`
never fires and the address stays `0.0.0.0`.
-/
import Libxv.Socket

namespace Libxv

variable {fds : Fds} {addr : String} {port sock : Nat} {s : Socket}

/-! ### The table of fds -/

namespace Fds

@[simp] theorem set_self (fds : Fds) (fd : Nat) (s : Option Socket) : fds.set fd s fd = s :=
  Function.update_self ..

@[simp] theorem set_set (fds : Fds) (fd : Nat) (s t : Option Socket) :
    (fds.set fd s).set fd t = fds.set fd t :=
  Function.update_idem ..

theorem set_none {fd : Nat} (h : fds fd = none) : fds.set fd none = fds :=
  Function.update_eq_self_iff.mpr h.symm

@[simp] theorem modify_set (fds : Fds) (fd : Nat) (s : Socket) (f : Socket → Socket) :
    (fds.set fd (some s)).modify fd f = fds.set fd (some (f s)) := by
  simp [modify]

end Fds

@[simp] theorem xvClose_set (fds : Fds) (fd : Nat) (s : Option Socket) :
    xvClose (fds.set fd s) fd = fds.set fd none :=
  Fds.set_set ..

/-! ### The helpers -/

/-- The address that is passed on: `0.0.0.0` for a string that is none. -/
def sockAddrOf (addr : String) (port : Nat) : SockAddr :=
  { sinPort := htons port, sinAddr := (dottedQuad addr).getD inaddrAny }

/-- Neither answer of `inet_pton` is negative. -/
theorem inetPton_eq (addr : String) (dst : InAddr) :
    ¬ (inetPton addr dst).1 < 0 ∧ (inetPton addr dst).2 = (dottedQuad addr).getD dst := by
  unfold inetPton
  cases dottedQuad addr with
  | none => exact ⟨by simp, rfl⟩
  | some ip => exact ⟨by simp, rfl⟩

/-- `xv_socket` gives a new socket, or an error and no socket. -/
theorem xvSocket_cases (calls : SocketCalls fds) :
    (calls.socket = none ∨ calls.setsockopt = false) ∧ xvSocket calls = (none, fds) ∨
    calls.setsockopt = true ∧ ∃ sock, calls.socket = some sock ∧
      xvSocket calls = (some sock.val, fds.set sock.val (some { reuseAddr := true })) := by
  unfold xvSocket
  cases hsocket : calls.socket with
  | none => exact .inl ⟨.inl rfl, rfl⟩
  | some sock =>
      cases hopt : calls.setsockopt with
      | false =>
          refine .inl ⟨.inr rfl, ?_⟩
          show (none, xvClose (fds.set sock.val _) sock.val) = (none, fds)
          rw [xvClose_set, Fds.set_none sock.property]
      | true =>
          refine .inr ⟨rfl, sock, rfl, ?_⟩
          show (some sock.val, (fds.set sock.val _).modify sock.val _) = _
          rw [Fds.modify_set]

/-! ### What is asked of a set-up -/

/-- An fd is a socket `good` for the requested address, and an error leaves the open fds alone. -/
def SetUp (fds : Fds) (addr : String) (port : Nat) (good : Socket → SockAddr → Prop)
    (out : Option Nat × Fds) : Prop :=
  match out.1 with
  | none => ∀ fd, out.2.isOpen fd = fds.isOpen fd
  | some sock => ∃ sa s, dottedQuad addr = some sa.sinAddr ∧ sa.sinPort.toNat = port ∧
      out.2 sock = some s ∧ good s sa

variable {good : Socket → SockAddr → Prop}

theorem SetUp.unchanged : SetUp fds addr port good (none, fds) := fun _ => rfl

/-- An error that leaves its socket open. -/
theorem SetUp.leak (hfree : fds sock = none) :
    ¬ SetUp fds addr port good (none, fds.set sock (some s)) := by
  intro h
  have hopen : (fds.set sock (some s)).isOpen sock = fds.isOpen sock := h sock
  unfold Fds.isOpen at hopen
  rw [Fds.set_self, hfree] at hopen
  simp at hopen

/-- A socket set up for the address that was passed on is one for the requested address exactly
when the string was an address. -/
theorem SetUp.made_iff (hport : port ≤ 65535)
    (hgood : ∀ sa, good s sa ↔ sa = sockAddrOf addr port) :
    SetUp fds addr port good (some sock, fds.set sock (some s)) ↔
      (dottedQuad addr).isSome := by
  constructor
  · rintro ⟨sa, t, hquad, -⟩
    rw [hquad]
    rfl
  · intro hsome
    obtain ⟨ip, hquad⟩ := Option.isSome_iff_exists.mp hsome
    refine ⟨sockAddrOf addr port, s, ?_, ?_, Fds.set_self .., (hgood _).mpr rfl⟩
    · simp [sockAddrOf, hquad]
    · show (UInt16.ofNat port).toNat = port
      rw [UInt16.toNat_ofNat']
      exact Nat.mod_eq_of_lt (by omega)

/-! ### xv_tcp_listen -/

/-- The socket listens on `sa`. -/
def Socket.ListensOn (backlog : Int) (s : Socket) (sa : SockAddr) : Prop :=
  s.bound = some sa ∧ s.backlog = some backlog

theorem xvTcpListen_eq {calls : SocketCalls fds} {backlog : Int} {t : Socket}
    (h : xvSocket calls = (some sock, fds.set sock (some t))) :
    xvTcpListen addr port backlog calls =
      let bound := { t with bound := some (sockAddrOf addr port) }
      if calls.bind = false then (none, fds.set sock (some t))
      else if calls.listen = false then (none, fds.set sock (some bound))
      else (some sock, fds.set sock (some { bound with backlog := some backlog })) := by
  obtain ⟨hparsed, haddr⟩ := inetPton_eq addr inaddrAny
  unfold xvTcpListen
  rw [h]
  dsimp only
  rw [if_neg hparsed, haddr]
  simp only [Fds.modify_set]
  rfl

/-- When a call of `xv_tcp_listen` on `addr` is in order. -/
def SocketCalls.ListenFits (calls : SocketCalls fds) (addr : String) : Prop :=
  calls.socket = none ∨ calls.setsockopt = false ∨
    (dottedQuad addr).isSome ∧ calls.bind = true ∧ calls.listen = true

theorem xvTcpListen_iff (calls : SocketCalls fds) (backlog : Int) (hport : port ≤ 65535) :
    SetUp fds addr port (Socket.ListensOn backlog) (xvTcpListen addr port backlog calls) ↔
      calls.ListenFits addr := by
  rcases xvSocket_cases calls with ⟨hfail, hsocket⟩ | ⟨hopt, sock, hsome, hsocket⟩
  · have hout : xvTcpListen addr port backlog calls = (none, fds) := by
      unfold xvTcpListen
      rw [hsocket]
    rw [hout]
    exact iff_of_true SetUp.unchanged (hfail.imp_right .inl)
  · rw [xvTcpListen_eq hsocket]
    cases hbind : calls.bind with
    | false =>
        exact iff_of_false (SetUp.leak sock.property) (by simp [SocketCalls.ListenFits, *])
    | true =>
        cases hlisten : calls.listen with
        | false =>
            exact iff_of_false (SetUp.leak sock.property) (by simp [SocketCalls.ListenFits, *])
        | true =>
            refine (SetUp.made_iff hport ?_).trans ?_
            · intro sa
              simp [Socket.ListensOn, eq_comm]
            · simp [SocketCalls.ListenFits, *]

/-! ### xv_tcp_connect and xv_tcp_nonblock_connect -/

/-- The socket is connected to `sa`, or on its way there if it does not block. -/
def Socket.ConnectsTo (nonblock : Bool) (s : Socket) (sa : SockAddr) : Prop :=
  s.connected = some sa ∨ nonblock = true ∧ s.connecting = some sa

/-- When a call of `xv_tcp_generic_connect` to `addr` is in order. -/
def SocketCalls.ConnectFits (calls : SocketCalls fds) (nonblock : Bool) (addr : String) : Prop :=
  calls.socket = none ∨ calls.setsockopt = false ∨
    nonblock = true ∧ (calls.getfl = false ∨ calls.setfl = false) ∨
    (dottedQuad addr).isSome ∧ calls.connect = .ok

/-- The socket as `connect` finds it. -/
def Socket.prepared (nonblock : Bool) (s : Socket) : Socket :=
  if nonblock then { s with nonblock := true } else s

/-- `xv_nonblock` is asked for, and refuses. -/
theorem xvTcpGenericConnect_refused {calls : SocketCalls fds} {nonblock : Bool} {t : Socket}
    (hfree : fds sock = none) (h : xvSocket calls = (some sock, fds.set sock (some t)))
    (hrefused : nonblock = true ∧ (calls.getfl = false ∨ calls.setfl = false)) :
    xvTcpGenericConnect addr port nonblock calls = (none, fds) := by
  have hnonblock : xvNonblock (fds.set sock (some t)) sock calls.getfl calls.setfl =
      (xvErr, fds.set sock (some t)) := by
    unfold xvNonblock
    rcases hrefused.2 with hgetfl | hsetfl
    · simp [hgetfl]
    · simp [hsetfl]
  unfold xvTcpGenericConnect
  rw [h]
  dsimp only
  rw [hrefused.1, if_pos rfl, hnonblock]
  dsimp only
  rw [if_pos rfl, xvClose_set, Fds.set_none hfree]

theorem xvTcpGenericConnect_eq {calls : SocketCalls fds} {nonblock : Bool} {t : Socket}
    (h : xvSocket calls = (some sock, fds.set sock (some t)))
    (hallowed : ¬ (nonblock = true ∧ (calls.getfl = false ∨ calls.setfl = false))) :
    xvTcpGenericConnect addr port nonblock calls =
      match calls.connect with
      | .ok => (some sock, fds.set sock
          (some { t.prepared nonblock with connected := some (sockAddrOf addr port) }))
      | .inProgress => (none, fds.set sock
          (some { t.prepared nonblock with connecting := some (sockAddrOf addr port) }))
      | .error => (none, fds.set sock (some (t.prepared nonblock))) := by
  have hmade : (if nonblock then
      xvNonblock (fds.set sock (some t)) sock calls.getfl calls.setfl
      else (xvOk, fds.set sock (some t))) = (xvOk, fds.set sock (some (t.prepared nonblock))) := by
    cases nonblock with
    | false => rfl
    | true =>
        have hflags : calls.getfl = true ∧ calls.setfl = true := by simpa using hallowed
        simp [xvNonblock, Socket.prepared, hflags]
  obtain ⟨hparsed, haddr⟩ := inetPton_eq addr inaddrAny
  unfold xvTcpGenericConnect
  rw [h]
  dsimp only
  rw [hmade]
  dsimp only
  rw [if_neg (by decide), if_neg hparsed, haddr]
  cases calls.connect with
  | ok =>
      simp only [connectFd, Fds.modify_set]
      rfl
  | inProgress =>
      simp only [connectFd, Fds.modify_set]
      rfl
  | error => rfl

theorem xvTcpGenericConnect_iff (calls : SocketCalls fds) (nonblock : Bool)
    (hport : port ≤ 65535) :
    SetUp fds addr port (Socket.ConnectsTo nonblock)
      (xvTcpGenericConnect addr port nonblock calls) ↔ calls.ConnectFits nonblock addr := by
  rcases xvSocket_cases calls with ⟨hfail, hsocket⟩ | ⟨hopt, sock, hsome, hsocket⟩
  · have hout : xvTcpGenericConnect addr port nonblock calls = (none, fds) := by
      unfold xvTcpGenericConnect
      rw [hsocket]
    rw [hout]
    exact iff_of_true SetUp.unchanged (hfail.imp_right .inl)
  · by_cases hrefused : nonblock = true ∧ (calls.getfl = false ∨ calls.setfl = false)
    · rw [xvTcpGenericConnect_refused sock.property hsocket hrefused]
      exact iff_of_true SetUp.unchanged (.inr (.inr (.inl hrefused)))
    · have hfits : calls.ConnectFits nonblock addr ↔
          (dottedQuad addr).isSome ∧ calls.connect = .ok := by
        unfold SocketCalls.ConnectFits
        rw [hsome, hopt]
        simp only [reduceCtorEq, false_or, hrefused]
      rw [xvTcpGenericConnect_eq hsocket hrefused, hfits]
      cases hconnect : calls.connect with
      | ok =>
          refine (SetUp.made_iff hport ?_).trans (by simp)
          intro sa
          cases nonblock <;> simp [Socket.ConnectsTo, Socket.prepared, eq_comm]
      | inProgress => exact iff_of_false (SetUp.leak sock.property) (by simp)
      | error => exact iff_of_false (SetUp.leak sock.property) (by simp)

/-! ### The three entry points -/

/-- **When a socket is set up on the requested address or not at all.** -/
theorem socket_setup_iff (fds : Fds) (calls : SocketCalls fds) (addr : String) (port : Nat)
    (backlog : Int) (hport : port ≤ 65535) :
    (SetUp fds addr port (Socket.ListensOn backlog) (xvTcpListen addr port backlog calls) ↔
      calls.ListenFits addr) ∧
    (SetUp fds addr port (Socket.ConnectsTo false) (xvTcpConnect addr port calls) ↔
      calls.ConnectFits false addr) ∧
    (SetUp fds addr port (Socket.ConnectsTo true) (xvTcpNonblockConnect addr port calls) ↔
      calls.ConnectFits true addr) :=
  ⟨xvTcpListen_iff calls backlog hport, xvTcpGenericConnect_iff calls false hport,
    xvTcpGenericConnect_iff calls true hport⟩

/-- `socket` gives fd 3, and every call succeeds but those named. -/
def SocketCalls.first (bind listen : Bool) (connect : ConnectOut) :
    SocketCalls (fun _ => none) :=
  { socket := some ⟨3, rfl⟩, setsockopt := true, getfl := true, setfl := true
    bind := bind, listen := listen, connect := connect }

theorem socket_setup_iff_loopback :
    SetUp (fun _ => none) "127.0.0.1" 80 (Socket.ListensOn 5)
      (xvTcpListen "127.0.0.1" 80 5 (.first true true .ok)) :=
  (socket_setup_iff _ (.first true true .ok) "127.0.0.1" 80 5 (by decide)).1.mpr
    (.inr (.inr (by decide)))

/-- A host name is taken for `0.0.0.0`; a `bind` that fails and a `connect` in progress each leave
a socket behind. -/
theorem socket_setup_strays :
    ¬ SetUp (fun _ => none) "localhost" 80 (Socket.ListensOn 5)
        (xvTcpListen "localhost" 80 5 (.first true true .ok)) ∧
    ¬ SetUp (fun _ => none) "127.0.0.1" 80 (Socket.ListensOn 5)
        (xvTcpListen "127.0.0.1" 80 5 (.first false true .ok)) ∧
    ¬ SetUp (fun _ => none) "127.0.0.1" 80 (Socket.ConnectsTo true)
        (xvTcpNonblockConnect "127.0.0.1" 80 (.first true true .inProgress)) := by
  refine ⟨?_, ?_, ?_⟩
  · rintro ⟨sa, s, hquad, -⟩
    exact absurd hquad (by rw [show dottedQuad "localhost" = none by decide]; simp)
  · intro h
    exact absurd (h 3) (by decide)
  · intro h
    exact absurd (h 3) (by decide)

end Libxv
