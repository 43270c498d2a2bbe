/-
The references to a connection.

`xv_message_init` and `xv_message_destroy` count a message in and out, the user counts its
own references, and nothing else touches `ref_count`: it is one more than the live messages
of the connection and the references the user has out.
-/
import Libxv.Proofs.Service.Ownership
import Mathlib.Data.Finset.Card
import Mathlib.Data.Finset.Range

namespace Libxv

open Function Transition

variable {P : Type} {cfg : Config} {ctl : EpollCtl} {s : State P}

/-- The live messages of a connection. -/
def State.liveMessages (s : State P) (c : Nat) : Finset Nat :=
  (Finset.range s.nextMsg).filter fun m => s.live m = true ∧ (s.msgs m).conn = c

/-- Every message belongs to a connection there is, and every reference is counted. -/
structure State.Counted (s : State P) : Prop where
  conns : ∀ m, m < s.nextMsg → (s.msgs m).conn < s.nextConn
  refs : ∀ c, c < s.nextConn → (s.conns c).conn.refCount =
    1 + (s.liveMessages c).card + (s.conns c).userRefs

theorem State.mem_liveMessages {c m : Nat} :
    m ∈ s.liveMessages c ↔ s.live m = true ∧ (s.msgs m).conn = c := by
  unfold State.liveMessages
  rw [Finset.mem_filter, Finset.mem_range]
  exact ⟨fun h => h.2, fun h => ⟨State.lt_of_live h.1, h⟩⟩

theorem State.liveMessages_congr {next : State P} (hlive : ∀ m, next.live m = s.live m)
    (hconn : ∀ m, (next.msgs m).conn = (s.msgs m).conn) (c : Nat) :
    next.liveMessages c = s.liveMessages c := by
  ext m
  rw [State.mem_liveMessages, State.mem_liveMessages, hlive, hconn]

/-- An instruction that makes and destroys no message and counts no reference. -/
theorem State.Counted.frame (h : s.Counted) {next : State P} (hnext : next.nextConn = s.nextConn)
    (hmsgs : next.nextMsg = s.nextMsg) (hlive : ∀ m, next.live m = s.live m)
    (hconn : ∀ m, (next.msgs m).conn = (s.msgs m).conn)
    (hrefs : ∀ c, (next.conns c).conn.refCount = (s.conns c).conn.refCount)
    (huser : ∀ c, (next.conns c).userRefs = (s.conns c).userRefs) : next.Counted where
  conns := by
    intro m hm
    rw [hconn, hnext]
    exact h.conns m (hmsgs ▸ hm)
  refs := by
    intro c hc
    rw [hrefs, huser, State.liveMessages_congr hlive hconn]
    exact h.refs c (hnext ▸ hc)

theorem State.liveMessages_init (c : Nat) (request response : Option P) (c' : Nat) :
    (s.xvMessageInit c request response).liveMessages c' =
      if c' = c then insert s.nextMsg (s.liveMessages c') else s.liveMessages c' := by
  have hconn : ∀ m, ((s.xvMessageInit c request response).msgs m).conn =
      if m = s.nextMsg then c else (s.msgs m).conn := by
    intro m
    by_cases hm : m = s.nextMsg
    · subst hm
      simp [State.xvMessageInit, State.addRef, State.setConn]
    · simp [State.xvMessageInit, State.addRef, State.setConn, hm]
  ext m
  rw [State.mem_liveMessages, State.live_init, hconn]
  by_cases hm : m = s.nextMsg
  · subst hm
    by_cases hc : c' = c
    · simp [hc]
    · have hdead : s.live s.nextMsg = false := by simp [State.live]
      simp [hc, Ne.symm hc, State.mem_liveMessages, hdead]
  · by_cases hc : c' = c
    · simp [hc, hm, State.mem_liveMessages]
    · simp [hc, hm, State.mem_liveMessages]

theorem State.card_liveMessages_init (c : Nat) (request response : Option P) (c' : Nat) :
    ((s.xvMessageInit c request response).liveMessages c').card =
      (s.liveMessages c').card + if c' = c then 1 else 0 := by
  rw [State.liveMessages_init]
  split
  · have hnew : s.nextMsg ∉ s.liveMessages c' := by
      simp [State.mem_liveMessages, State.live]
    exact Finset.card_insert_of_notMem hnew
  · rfl

theorem State.addRef_refCount (s : State P) (c : Nat) (n : Int) (c' : Nat) :
    ((s.addRef c n).conns c').conn.refCount =
      (s.conns c').conn.refCount + if c' = c then n else 0 := by
  by_cases hc : c' = c
  · subst hc
    simp [State.addRef, State.setConn]
  · simp [State.addRef, State.setConn, hc]

theorem State.addRef_userRefs (s : State P) (c : Nat) (n : Int) (c' : Nat) :
    ((s.addRef c n).conns c').userRefs = (s.conns c').userRefs :=
  update_same s.conns c _ Connection.userRefs (by rfl) c'

/-- A new message is one live message and one reference more. -/
theorem State.Counted.messageInit (h : s.Counted) {c : Nat} (hc : c < s.nextConn)
    (request response : Option P) : (s.xvMessageInit c request response).Counted where
  conns := by
    intro m hm
    have hm : m < s.nextMsg + 1 := hm
    by_cases hnew : m = s.nextMsg
    · subst hnew
      simpa [State.xvMessageInit, State.addRef, State.setConn] using hc
    · simpa [State.xvMessageInit, State.addRef, State.setConn, hnew] using
        h.conns m (by omega)
  refs := by
    intro c' hc'
    have hrefs := h.refs c' hc'
    have hcount := s.addRef_refCount c 1 c'
    have huser := s.addRef_userRefs c 1 c'
    show ((s.addRef c 1).conns c').conn.refCount =
      1 + (((s.xvMessageInit c request response).liveMessages c').card : Int) +
        ((s.addRef c 1).conns c').userRefs
    rw [hcount, huser, State.card_liveMessages_init, hrefs]
    split <;> push_cast <;> omega

theorem State.liveMessages_destroy (m c : Nat) :
    (s.xvMessageDestroy m).liveMessages c = (s.liveMessages c).erase m := by
  have hconn : ∀ x, ((s.xvMessageDestroy m).msgs x).conn = (s.msgs x).conn :=
    update_same s.msgs m _ Message.conn (by rfl)
  ext x
  rw [State.mem_liveMessages, State.live_destroy, hconn, Finset.mem_erase,
    State.mem_liveMessages]
  constructor
  · rintro ⟨⟨hlive, hne⟩, hc⟩
    exact ⟨hne, hlive, hc⟩
  · rintro ⟨hne, hlive, hc⟩
    exact ⟨⟨hlive, hne⟩, hc⟩

/-- Destroying a live message drops one of both. -/
theorem State.Counted.messageDestroy (h : s.Counted) {m : Nat} (hm : s.live m = true) :
    (s.xvMessageDestroy m).Counted where
  conns := by
    intro x hx
    rw [show ((s.xvMessageDestroy m).msgs x).conn = (s.msgs x).conn from
      update_same s.msgs m _ Message.conn (by rfl) x]
    exact h.conns x hx
  refs := by
    intro c hc
    have hrefs := h.refs c hc
    have hcount := s.addRef_refCount (s.msgs m).conn (-1) c
    have huser := s.addRef_userRefs (s.msgs m).conn (-1) c
    show ((s.addRef (s.msgs m).conn (-1)).conns c).conn.refCount =
      1 + (((s.xvMessageDestroy m).liveMessages c).card : Int) +
        ((s.addRef (s.msgs m).conn (-1)).conns c).userRefs
    rw [hcount, huser, State.liveMessages_destroy, hrefs]
    by_cases hcm : c = (s.msgs m).conn
    · have hmem : m ∈ s.liveMessages c := State.mem_liveMessages.mpr ⟨hm, hcm.symm⟩
      have hpos : 0 < (s.liveMessages c).card := Finset.card_pos.mpr ⟨m, hmem⟩
      rw [Finset.card_erase_of_mem hmem, if_pos hcm]
      omega
    · have hnot : m ∉ s.liveMessages c := fun hmem =>
        hcm (State.mem_liveMessages.mp hmem).2.symm
      rw [Finset.erase_eq_of_notMem hnot, if_neg hcm]
      omega

theorem State.Counted.accept (h : s.Counted) (fd : Nat) (handle : Handle) (mem : Nat → UInt8) :
    (s.accept fd handle mem).Counted where
  conns := fun m hm => Nat.lt_succ_of_lt (h.conns m hm)
  refs := by
    intro c hc
    have hlive : (s.accept fd handle mem).liveMessages c = s.liveMessages c := rfl
    rw [hlive]
    by_cases hnew : c = s.nextConn
    · subst hnew
      have hnone : s.liveMessages s.nextConn = ∅ := by
        refine Finset.eq_empty_of_forall_notMem fun m hm => ?_
        obtain ⟨hm, hconn⟩ := State.mem_liveMessages.mp hm
        exact absurd (h.conns m (State.lt_of_live hm)) (by omega)
      rw [hnone]
      simp [State.accept, xvConnectionInit]
    · have hc : c < s.nextConn + 1 := hc
      simpa [State.accept, hnew] using h.refs c (by omega)

/-- The connection an instruction touches is not freed. -/
theorem State.safe_alive {a : Agent} (hsafe : s.safe a = true) {c : Nat}
    (h : (s.pc a).touches s.msgs = some c) : s.alive c = true := by
  unfold State.safe at hsafe
  rw [h] at hsafe
  exact hsafe

theorem State.lt_of_alive {c : Nat} (h : s.alive c = true) : c < s.nextConn := by
  simp only [State.alive, Bool.and_eq_true, decide_eq_true_eq] at h
  exact h.1

/-- One instruction. -/
theorem State.Counted.instr (h : s.Counted) (howned : s.Owned) {a : Agent} {act : Act P}
    {next : State P} {pc' : Pc P} (hsafe : s.safe a = true)
    (hinstr : Instr cfg ctl s a (s.pc a) act next pc') : next.Counted := by
  generalize hpc : s.pc a = pc at hinstr
  have hheld : ∀ m, pc.holds = some m → s.live m = true :=
    fun m hm => (howned.held (a := a) (by rw [hpc]; exact hm)).1
  cases hinstr
  case request t fd c out decoded conn chunks request hslot halive hread =>
    have hsame := readAndDecode_same hread
    have hread' : (s.receive c conn chunks).Counted :=
      h.frame rfl rfl (fun _ => rfl) (fun _ => rfl)
        (update_same s.conns c _ (fun conn => conn.conn.refCount) hsame.refCount)
        (update_same s.conns c _ Connection.userRefs (by rfl))
    exact hread'.messageInit (State.lt_of_alive (s := s) halive) request none
  case sendInit u c package =>
    have halive := State.safe_alive hsafe (c := c) (by rw [hpc]; rfl)
    exact h.messageInit (State.lt_of_alive halive) none package
  case finish t m origin => exact h.messageDestroy (hheld m rfl)
  case returnedClosed t m hstatus => exact h.messageDestroy (hheld m rfl)
  case accept t fd handle mem ht hfd => exact h.accept fd handle mem
  case readBack t fd c out decoded conn chunks hslot halive hread
      | readClose t fd c out decoded conn chunks hslot halive hread =>
    exact h.frame rfl rfl (fun _ => rfl) (fun _ => rfl)
      (update_same s.conns c _ (fun conn => conn.conn.refCount) (readAndDecode_same hread).refCount)
      (update_same s.conns c _ Connection.userRefs (by rfl))
  case respond t m c origin pieces out sent encodes hc hsent hencodes =>
    have hsame : (s.conns c).conn.Same sent.conn := hsent ▸ processMessage_same ..
    exact h.frame rfl rfl (s.live_markEncoded m encodes)
      (update_same s.msgs m _ Message.conn (by rfl))
      (update_same s.conns c _ (fun conn => conn.conn.refCount) hsame.refCount)
      (update_same s.conns c _ Connection.userRefs (by rfl))
  case write t fd c out sent hslot halive hsent =>
    have hsame : (s.conns c).conn.Same sent.conn := hsent ▸ onConnectionWrite_same ..
    exact h.frame rfl rfl (fun _ => rfl) (fun _ => rfl)
      (update_same s.conns c _ (fun conn => conn.conn.refCount) hsame.refCount)
      (update_same s.conns c _ Connection.userRefs (by rfl))
  case close t c owner resume howner =>
    exact h.frame rfl rfl (fun _ => rfl) (fun _ => rfl)
      (update_same s.conns c _ (fun conn => conn.conn.refCount) (closeConnection_from ..).refCount)
      (update_same s.conns c _ Connection.userRefs (by rfl))
  case closeDel t c resume | closeFd t c resume | closeFree t c resume | freeReturned t c =>
    exact h.frame rfl rfl (fun _ => rfl) (fun _ => rfl)
      (update_same s.conns c _ (fun conn => conn.conn.refCount) (by rfl))
      (update_same s.conns c _ Connection.userRefs (by rfl))
  case assignSelf t c hone | adopt t c =>
    exact h.frame rfl rfl (fun _ => rfl) (fun _ => rfl)
      (update_same s.conns c _ (fun conn => conn.conn.refCount) (by rfl))
      (update_same s.conns c _ Connection.userRefs (by rfl))
  case process t m response | taskProcess i m response =>
    exact h.frame rfl rfl (s.live_setResponse m response)
      (update_same s.msgs m _ Message.conn (by rfl)) (fun _ => rfl) fun _ => rfl
  all_goals
    exact h.frame rfl rfl (fun _ => rfl) (fun _ => rfl) (fun _ => rfl) fun _ => rfl

/-- The user's own references are counted too. -/
theorem State.Counted.incrRef (h : s.Counted) (c : Nat) : (s.incrRef c).Counted where
  conns := h.conns
  refs := by
    intro c' hc'
    have hlive : (s.incrRef c).liveMessages c' = s.liveMessages c' := rfl
    have hrefs := h.refs c' hc'
    rw [hlive]
    by_cases hc : c' = c
    · subst hc
      simp only [State.incrRef, State.addRef, State.setConn, update_self]
      omega
    · simp only [State.incrRef, State.addRef, State.setConn, update_of_ne hc]
      exact hrefs

theorem State.Counted.decrRef (h : s.Counted) {c : Nat} (hpos : 0 < (s.conns c).userRefs) :
    (s.decrRef c).Counted where
  conns := h.conns
  refs := by
    intro c' hc'
    have hlive : (s.decrRef c).liveMessages c' = s.liveMessages c' := rfl
    have hrefs := h.refs c' hc'
    rw [hlive]
    by_cases hc : c' = c
    · subst hc
      simp only [State.decrRef, State.addRef, State.setConn, update_self]
      omega
    · simp only [State.decrRef, State.addRef, State.setConn, update_of_ne hc]
      exact hrefs

theorem State.Counted.step (h : s.Counted) (howned : s.Owned) {label : Label P} {s' : State P}
    (hstep : s.step cfg ctl label = some s') : s'.Counted := by
  rcases State.step_cases hstep with ⟨a, act, next, pc, -, hsafe, -, hinstr, rfl⟩ |
      ⟨c, -, -, rfl⟩ | ⟨c, -, -, hpos, rfl⟩
  · have hnext := h.instr howned hsafe hinstr
    exact ⟨hnext.conns, hnext.refs⟩
  · exact h.incrRef c
  · exact h.decrRef hpos

theorem State.Counted.init : (State.init : State P).Counted where
  conns := fun m hm => absurd hm (Nat.not_lt_zero m)
  refs := fun c hc => absurd hc (Nat.not_lt_zero c)

/-- The last reference: no live message, no reference of the user. -/
theorem State.Counted.last (h : s.Counted) {c : Nat} (hc : c < s.nextConn)
    (hrefs : (s.conns c).conn.refCount ≤ 1) :
    (s.conns c).conn.refCount = 1 ∧ (∀ m, s.live m = true → (s.msgs m).conn ≠ c) ∧
      (s.conns c).userRefs = 0 := by
  have hcount := h.refs c hc
  have hnone : (s.liveMessages c).card = 0 := by omega
  refine ⟨by omega, fun m hm hconn => ?_, by omega⟩
  have hmem : m ∈ s.liveMessages c := State.mem_liveMessages.mpr ⟨hm, hconn⟩
  rw [Finset.card_eq_zero.mp hnone] at hmem
  exact absurd hmem (Finset.notMem_empty m)

end Libxv
