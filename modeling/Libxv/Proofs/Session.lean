/-
What one callback does to a session.

`Session.Moves` names what a callback may come to, with the test that leads there, so that an
invariant of a session is a short case for each and no proof follows `Session.step` again.
-/
import Libxv.Session

namespace Libxv

variable {P : Type} {workers : Bool} {ctl : EpollCtl} {s s' : Session P}

/-- What a callback comes to. -/
inductive Session.Moves (workers : Bool) (ctl : EpollCtl) (s : Session P) :
    Callback P → Session P → Prop
  | readBack {out : ReadOut} {conn : Conn} (decoded : DecodeOut P) (response : Option P)
      (pieces : List Piece) (write : WriteOut) (hlive : s.freed = false)
      (hslot : (s.loop.slot s.conn.fd).readIo = some s.conn.readIo.id)
      (hread : Libxv.onConnectionRead s.conn out = (conn, .back)) :
      Moves workers ctl s (.read out decoded response pieces write) { s with conn := conn }
  | readClose {out : ReadOut} {conn : Conn} (decoded : DecodeOut P) (response : Option P)
      (pieces : List Piece) (write : WriteOut) (hlive : s.freed = false)
      (hslot : (s.loop.slot s.conn.fd).readIo = some s.conn.readIo.id)
      (hread : Libxv.onConnectionRead s.conn out = (conn, .close)) :
      Moves workers ctl s (.read out decoded response pieces write)
        (Session.close ctl { s with conn := conn })
  | readProcess {out : ReadOut} {conn : Conn} {decoded : DecodeOut P} (response : Option P)
      (pieces : List Piece) (write : WriteOut) (hlive : s.freed = false)
      (hslot : (s.loop.slot s.conn.fd).readIo = some s.conn.readIo.id)
      (hread : Libxv.onConnectionRead s.conn out = (conn, .process))
      (hfits : decoded.Fits conn.readBuffer) :
      Moves workers ctl s (.read out decoded response pieces write)
        (Session.processReadBuffer workers ctl
          { s with conn := conn, received := s.received ++ out.chunk? } decoded response pieces
          write)
  | write (out : WriteOut) (hlive : s.freed = false)
      (hslot : (s.loop.slot s.conn.fd).writeIo = some s.conn.writeIo.id) :
      Moves workers ctl s (.write out) (s.after ctl (onConnectionWrite ctl s.loop s.conn out))
  | answer (response : Option P) (pieces : List Piece) (write : WriteOut)
      (hlive : s.freed = false) (hopen : s.conn.status ≠ .closed) :
      Moves workers ctl s (.returned response pieces write)
        (s.processMessage ctl response pieces write)
  | release (response : Option P) (pieces : List Piece) (write : WriteOut)
      (hlive : s.freed = false) (hclosed : s.conn.status = .closed) :
      Moves workers ctl s (.returned response pieces write) { s with freed := true }
  | otherStart (io : Io) (hfd : io.fd ≠ s.conn.fd) :
      Moves workers ctl s (.other io true) { s with loop := (xvIoStart ctl s.loop io).2.1 }
  | otherStop (io : Io) (hfd : io.fd ≠ s.conn.fd) :
      Moves workers ctl s (.other io false) { s with loop := (xvIoStop ctl s.loop io).2.1 }
  | refs (count : Int) :
      Moves workers ctl s (.refs count) { s with conn := { s.conn with refCount := count } }

/-- A callback comes to one of these. -/
theorem Session.step_moves {callback : Callback P}
    (hstep : s.step workers ctl callback = some s') : Session.Moves workers ctl s callback s' := by
  cases callback with
  | read out decoded response pieces write =>
      simp only [Session.step, Option.ite_none_left_eq_some, not_or, Bool.not_eq_true,
        Decidable.not_not] at hstep
      obtain ⟨⟨hlive, hslot⟩, hstep⟩ := hstep
      unfold Session.onConnectionRead at hstep
      rcases hread : Libxv.onConnectionRead s.conn out with ⟨conn, next⟩
      rw [hread] at hstep
      cases next with
      | back =>
          obtain rfl := Option.some.inj hstep
          exact .readBack decoded response pieces write hlive hslot hread
      | close =>
          obtain rfl := Option.some.inj hstep
          exact .readClose decoded response pieces write hlive hslot hread
      | process =>
          simp only [Option.ite_none_right_eq_some, Option.some.injEq] at hstep
          obtain ⟨hfits, rfl⟩ := hstep
          exact .readProcess response pieces write hlive hslot hread hfits
  | write out =>
      simp only [Session.step, Option.ite_none_left_eq_some, not_or, Bool.not_eq_true,
        Decidable.not_not, Option.some.injEq] at hstep
      obtain ⟨⟨hlive, hslot⟩, rfl⟩ := hstep
      exact .write out hlive hslot
  | returned response pieces write =>
      simp only [Session.step, Option.ite_none_left_eq_some, Bool.not_eq_true] at hstep
      obtain ⟨hlive, hstep⟩ := hstep
      split at hstep
      · rename_i hopen
        obtain rfl := Option.some.inj hstep
        exact .answer response pieces write hlive hopen
      · rename_i hclosed
        obtain rfl := Option.some.inj hstep
        exact .release response pieces write hlive (Decidable.not_not.mp hclosed)
  | other io on =>
      simp only [Session.step, Option.ite_none_left_eq_some] at hstep
      obtain ⟨hfd, hstep⟩ := hstep
      cases on with
      | true =>
          obtain rfl := Option.some.inj hstep
          exact .otherStart io hfd
      | false =>
          obtain rfl := Option.some.inj hstep
          exact .otherStop io hfd
  | refs count =>
      obtain rfl := Option.some.inj hstep
      exact .refs count

end Libxv
