/-
Setting up sockets: the first half of `xv_socket.c`.

The kernel's part is a table of open fds, and what each of the fallible calls answers
(`SocketCalls`).  A call that fails changes nothing; one that succeeds does to the table
what its manual page says.  Each definition then follows the C function of the same name,
with the table it leaves beside what it returns.
-/
import Libxv.Define
import Mathlib.Logic.Function.Basic

namespace Libxv

/-! ### Addresses -/

/-- `struct in_addr`. -/
structure InAddr where
  octets : Vector UInt8 4
  deriving DecidableEq, Repr

/-- `0.0.0.0`, which is what `memset` leaves in a `sockaddr_in`. -/
def inaddrAny : InAddr := ⟨#v[0, 0, 0, 0]⟩

/-- One to three digits, at most 255, and no leading zero. -/
def dottedOctet (digits : List Char) : Option UInt8 :=
  let value := digits.foldl (fun n c => 10 * n + (c.toNat - '0'.toNat)) 0
  if digits.all Char.isDigit ∧ 1 ≤ digits.length ∧ digits.length ≤ 3 ∧ value ≤ 255 ∧
      (digits.head? = some '0' → digits.length = 1) then
    some (.ofNat value)
  else none

/-- The address a dotted quad stands for. -/
def dottedQuad (src : String) : Option InAddr :=
  match (src.toList.splitOn '.').mapM dottedOctet with
  | some [a, b, c, d] => some ⟨#v[a, b, c, d]⟩
  | _ => none

example : dottedQuad "127.0.0.1" = some ⟨#v[127, 0, 0, 1]⟩ := by decide
example : dottedQuad "localhost" = none := by decide

/-- `inet_pton(AF_INET, src, dst)`: what it returns, and what is then in `*dst`. -/
def inetPton (src : String) (dst : InAddr) : Int × InAddr :=
  match dottedQuad src with
  | some addr => (1, addr)
  | none => (0, dst)

/-- `struct sockaddr_in`. -/
structure SockAddr where
  sinPort : UInt16
  sinAddr : InAddr
  deriving DecidableEq, Repr

/-- `htons(port)`: the argument is converted to 16 bits. -/
def htons (port : Nat) : UInt16 := .ofNat port

/-! ### The fds of the process -/

/-- What is known of a socket. -/
structure Socket where
  reuseAddr : Bool := false
  nonblock : Bool := false
  bound : Option SockAddr := none
  backlog : Option Int := none
  connected : Option SockAddr := none
  connecting : Option SockAddr := none
  deriving DecidableEq, Repr

/-- The open fds.  Of those opened before only that they are open matters. -/
abbrev Fds := Nat → Option Socket

def Fds.isOpen (fds : Fds) (fd : Nat) : Bool := (fds fd).isSome

def Fds.set (fds : Fds) (fd : Nat) (s : Option Socket) : Fds := Function.update fds fd s

/-- A successful call on `fd`. -/
def Fds.modify (fds : Fds) (fd : Nat) (f : Socket → Socket) : Fds := fds.set fd ((fds fd).map f)

/-- `connect` fails with `EINPROGRESS` when it goes on without the caller. -/
inductive ConnectOut
  | ok
  | inProgress
  | error
  deriving DecidableEq, Repr

/-- What the calls answer; `socket` gives an fd that is not open, `true` is success. -/
structure SocketCalls (fds : Fds) where
  socket : Option { fd : Nat // fds fd = none }
  setsockopt : Bool
  getfl : Bool
  setfl : Bool
  bind : Bool
  listen : Bool
  connect : ConnectOut

/-- `close`. -/
def xvClose (fds : Fds) (fd : Nat) : Fds := fds.set fd none

/-! ### The functions -/

def xvTcpReuseAddr (fds : Fds) (fd : Nat) (setsockopt : Bool) : Int × Fds :=
  if setsockopt then (xvOk, fds.modify fd fun s => { s with reuseAddr := true })
  else (xvErr, fds)

/-- Sets `O_NONBLOCK` on top of the flags `F_GETFL` gave. -/
def xvNonblock (fds : Fds) (fd : Nat) (getfl setfl : Bool) : Int × Fds :=
  if getfl then
    if setfl then (xvOk, fds.modify fd fun s => { s with nonblock := true })
    else (xvErr, fds)
  else (xvErr, fds)

variable {fds : Fds}

/-- An fd, or `none` for `XV_ERR`. -/
def xvSocket (calls : SocketCalls fds) : Option Nat × Fds :=
  match calls.socket with
  | none => (none, fds)
  | some sock =>
      let opened := fds.set sock.val (some {})
      let (ret, reused) := xvTcpReuseAddr opened sock.val calls.setsockopt
      if ret = xvErr then (none, xvClose reused sock.val) else (some sock.val, reused)

/-- What `connect` does to the socket when it succeeds, and when it goes on by itself. -/
def connectFd (fds : Fds) (sock : Nat) (sa : SockAddr) : ConnectOut → Int × Fds
  | .ok => (0, fds.modify sock fun s => { s with connected := some sa })
  | .inProgress => (-1, fds.modify sock fun s => { s with connecting := some sa })
  | .error => (-1, fds)

def xvTcpGenericConnect (addr : String) (port : Nat) (nonblock : Bool) (calls : SocketCalls fds) :
    Option Nat × Fds :=
  match xvSocket calls with
  | (none, fds) => (none, fds)
  | (some sock, opened) =>
      let (ret, made) :=
        if nonblock then xvNonblock opened sock calls.getfl calls.setfl else (xvOk, opened)
      if ret = xvErr then (none, xvClose made sock)
      else
        let (parsed, sinAddr) := inetPton addr inaddrAny
        let sa : SockAddr := { sinPort := htons port, sinAddr := sinAddr }
        if parsed < 0 then (none, made)
        else
          let (ret, tried) := connectFd made sock sa calls.connect
          if ret < 0 then (none, tried) else (some sock, tried)

def xvTcpConnect (addr : String) (port : Nat) (calls : SocketCalls fds) : Option Nat × Fds :=
  xvTcpGenericConnect addr port false calls

def xvTcpNonblockConnect (addr : String) (port : Nat) (calls : SocketCalls fds) :
    Option Nat × Fds :=
  xvTcpGenericConnect addr port true calls

def xvTcpListen (addr : String) (port : Nat) (backlog : Int) (calls : SocketCalls fds) :
    Option Nat × Fds :=
  match xvSocket calls with
  | (none, fds) => (none, fds)
  | (some sock, opened) =>
      let (parsed, sinAddr) := inetPton addr inaddrAny
      let sa : SockAddr := { sinPort := htons port, sinAddr := sinAddr }
      if parsed < 0 then (none, opened)
      else if calls.bind = false then (none, opened)
      else
        let bound := opened.modify sock fun s => { s with bound := some sa }
        if calls.listen = false then (none, bound)
        else (some sock, bound.modify sock fun s => { s with backlog := some backlog })

end Libxv
