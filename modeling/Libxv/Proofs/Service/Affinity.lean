/-
Every connection belongs to one io thread.

The io thread that owns a connection, once it is adopted, is the only one that runs callbacks
on it, closes it or gets its messages back.
-/
import Libxv.Proofs.Service.Adoption

namespace Libxv

open Function Transition

variable {P : Type} {cfg : Config} {ctl : EpollCtl} {s : State P}

/-! ### The owner's thread -/

/-- The connection whose callback a thread is in. -/
def Pc.serves (msgs : Nat → Message P) : Pc P → Option Nat
  | .returned m | .process m | .respond m _ | .finish m _ | .pushTask m => some (msgs m).conn
  | .close c _ | .closeRef c _ | .closeDel c _ | .closeFd c _ | .closeFree c _
  | .freeReturned c => some c
  | _ => none

/-- The io thread and the message a push is about to bring together. -/
def Pc.pushes : Pc P → Option (Nat × Nat)
  | .taskPush t m | .sendPush t m => some (t, m)
  | _ => none

/-- A connection and a message of it that a thread has both in its hands. -/
def Pc.links : Pc P → Option (Nat × Nat)
  | .close c (.finish m _) | .closeRef c (.finish m _) | .closeDel c (.finish m _)
  | .closeFd c (.finish m _) | .closeFree c (.finish m _) | .sendFetch c m => some (c, m)
  | _ => none

/-- Whatever happens to a connection happens on the thread it belongs to. -/
structure State.Affine (s : State P) : Prop where
  ids : ∀ c, c < s.nextConn →
    (s.conns c).conn.readIo.id = c ∧ (s.conns c).conn.writeIo.id = c
  slots : ∀ t fd c, ((s.io t).loop.slot fd).readIo = some c ∨
    ((s.io t).loop.slot fd).writeIo = some c → s.owner c = some t
  queued : ∀ t m, m ∈ (s.io t).messageQueue → s.owner (s.msgs m).conn = some t
  serving : ∀ a c, (s.pc a).serves s.msgs = some c → ∃ t, a = .io t ∧ s.owner c = some t
  pushing : ∀ a t m, (s.pc a).pushes = some (t, m) → s.owner (s.msgs m).conn = some t
  linked : ∀ a c m, (s.pc a).links = some (c, m) → (s.msgs m).conn = c

theorem Pc.serves_congr (pc : Pc P) {msgs msgs' : Nat → Message P}
    (h : ∀ m, pc.holds = some m → (msgs' m).conn = (msgs m).conn) :
    pc.serves msgs' = pc.serves msgs := by
  cases pc
  case returned m | process m | respond m _ | finish m _ | pushTask m =>
    exact congrArg some (h m rfl)
  all_goals rfl

theorem Pc.holds_of_pushes {pc : Pc P} {t m : Nat} (h : pc.pushes = some (t, m)) :
    pc.holds = some m := by
  cases pc <;> simp_all [Pc.pushes, Pc.holds]

theorem Pc.holds_of_links {pc : Pc P} {c m : Nat} (h : pc.links = some (c, m)) :
    pc.holds = some m := by
  cases pc
  case close _ resume | closeRef _ resume | closeDel _ resume | closeFd _ resume
      | closeFree _ resume =>
    cases resume <;> simp_all [Pc.links, Pc.holds]
  all_goals simp_all [Pc.links, Pc.holds]

/-- A message stays with its connection. -/
theorem Instr.msg_conn {a : Agent} {pc pc' : Pc P} {act : Act P} {next : State P}
    (h : Instr cfg ctl s a pc act next pc') {m : Nat} (hm : m < s.nextMsg) :
    (next.msgs m).conn = (s.msgs m).conn := by
  cases h
  case request | sendInit =>
    exact congrArg Message.conn (update_of_ne (Nat.ne_of_lt hm) ..)
  case finish m' _ | returnedClosed m' _ =>
    exact update_same s.msgs _ _ Message.conn (by rfl) m
  case respond | process | taskProcess => exact update_same s.msgs _ _ Message.conn (by rfl) m
  all_goals rfl

/-- A message comes into a queue by a push. -/
theorem Instr.messageQueue_mem {a : Agent} {pc pc' : Pc P} {act : Act P} {next : State P}
    (h : Instr cfg ctl s a pc act next pc') {t m : Nat} (hm : m ∈ (next.io t).messageQueue) :
    m ∈ (s.io t).messageQueue ∨ pc.pushes = some (t, m) := by
  have hset : ∀ {i : Nat} {io : IoThread}, m ∈ (update s.io i io t).messageQueue →
      io.messageQueue = (s.io i).messageQueue → m ∈ (s.io t).messageQueue := by
    intro i io hmem hio
    rwa [update_same s.io i io IoThread.messageQueue hio t] at hmem
  cases h
  case taskPush i t' m' | sendPush u t' m' =>
    by_cases ht : t = t'
    · subst ht
      simp only [State.pushMessage, update_self, List.mem_append, List.mem_singleton] at hm
      rcases hm with hold | rfl
      · exact Or.inl hold
      · exact Or.inr rfl
    · simp only [State.pushMessage, update_of_ne ht] at hm
      exact Or.inl hm
  case returnPop t' m' rest hqueue =>
    by_cases ht : t = t'
    · subst ht
      simp only [State.popMessage, update_self] at hm
      exact Or.inl (List.mem_of_mem_tail hm)
    · simp only [State.popMessage, update_of_ne ht] at hm
      exact Or.inl hm
  case entry | close | respond | write | assignSelf | assignOther | adopt | sendConn | addConnRead
      | addConnPop | returnRead | sendSignal | taskSend =>
    exact Or.inl (hset hm rfl)
  all_goals exact Or.inl hm

/-- The ios of a connection go by its number. -/
theorem State.Affine.instr_ids (h : s.Affine) {a : Agent} {pc pc' : Pc P} {act : Act P}
    {next : State P} (hinstr : Instr cfg ctl s a pc act next pc') (c : Nat)
    (hc : c < next.nextConn) :
    (next.conns c).conn.readIo.id = c ∧ (next.conns c).conn.writeIo.id = c := by
  rcases hinstr.conns_cases hc with hlt | ⟨rfl, -, fd, handle, mem, rfl⟩
  · have hkept := hinstr.kept hlt
    rw [hkept.readId, hkept.writeId]
    exact h.ids c hlt
  · simp [State.accept, xvConnectionInit, xvIoInit]

/-- Only the owner's loop has a connection in its slots. -/
theorem State.Affine.instr_slots (h : s.Affine) (hadopted : s.Adopted) (hcounted : s.Counted)
    (howned : s.Owned) {a : Agent} {act : Act P} {next : State P} {pc' : Pc P}
    (hinstr : Instr cfg ctl s a (s.pc a) act next pc') (t fd c : Nat)
    (hslot : ((next.io t).loop.slot fd).readIo = some c ∨
      ((next.io t).loop.slot fd).writeIo = some c) : next.owner c = some t := by
  have hmono : ∀ {c t : Nat}, s.owner c = some t → next.owner c = some t :=
    hadopted.owner_mono hinstr
  have hsame : (next.io t).loop = (s.io t).loop → next.owner c = some t := by
    intro hloop
    rw [hloop] at hslot
    exact hmono (h.slots t fd c hslot)
  have hadds : ∀ {i id : Nat} {loop : Loop},
      (next.io t).loop = (update s.io i { s.io i with loop := loop } t).loop →
      (s.io i).loop.AddsOnly loop id → next.owner id = some i → next.owner c = some t := by
    intro i id loop hio hadd hid
    by_cases ht : t = i
    · subst ht
      rw [update_self] at hio
      rw [hio] at hslot
      rcases hslot with hread | hwrite
      · rcases hadd.read fd c hread with hold | rfl
        · exact hmono (h.slots t fd c (Or.inl hold))
        · exact hid
      · rcases hadd.write fd c hwrite with hold | rfl
        · exact hmono (h.slots t fd c (Or.inr hold))
        · exact hid
    · rw [update_of_ne ht] at hio
      exact hsame hio
  have hserving := h.serving a
  have hadopts : ∀ c', (s.pc a).adopts = some c' → c' < s.nextConn := fun c' hc' =>
    (hadopted.placed.live (p := .held a) (m := c') (by simp [State.newcomers, hc'])).1
  have hheld : ∀ m, (s.pc a).holds = some m → m < s.nextMsg :=
    fun m hm => State.lt_of_live (howned.held hm).1
  generalize s.pc a = pc at hinstr hserving hadopts hheld
  cases hinstr
  case close t' c' owner resume howner =>
    exact hadds rfl (closeConnection_addsOnly ctl _ _ c') (hmono howner)
  case respond t' m c' origin pieces out sent encodes hc hsent hencodes =>
    obtain ⟨t'', ht'', howner⟩ := hserving c' (by rw [hc]; rfl)
    obtain rfl : t' = t'' := Agent.io.inj ht''
    have hlt : c' < s.nextConn := hc ▸ hcounted.conns m (hheld m rfl)
    have hadd := processMessage_addsOnly ctl (s.io t').loop (s.conns c').conn
      (s.msgs m).response pieces out
    rw [(h.ids c' hlt).2, ← hsent] at hadd
    exact hadds rfl hadd (hmono howner)
  case write t' fd' c' out sent hslot' halive hsent =>
    have hadd := onConnectionWrite_addsOnly ctl (s.io t').loop (s.conns c').conn out c'
    rw [← hsent] at hadd
    exact hadds rfl hadd (hmono (h.slots t' fd' c' (Or.inr hslot')))
  case assignSelf t' c' hone | adopt t' c' =>
    have hid : (s.conns c').conn.readIo.id = c' := (h.ids c' (hadopts c' rfl)).1
    have hadd := xvIoStart_addsOnly ctl (s.io t').loop (s.conns c').conn.readIo
    rw [hid] at hadd
    exact hadds rfl hadd (by rw [State.adopt_owner, if_pos rfl])
  case entry | assignOther | sendConn | addConnRead | addConnPop | taskPush | sendPush | returnPop
      | returnRead | sendSignal | taskSend =>
    exact hsame (update_same s.io _ _ IoThread.loop (by rfl) t)
  all_goals exact hsame rfl

/-- The thread that makes the instruction. -/
theorem State.Affine.instr_serving (h : s.Affine) (howned : s.Owned) {a : Agent} {act : Act P}
    {next : State P} {pc' : Pc P} (hinstr : Instr cfg ctl s a (s.pc a) act next pc') (c : Nat)
    (hc : pc'.serves next.msgs = some c) : ∃ t, a = .io t ∧ s.owner c = some t := by
  have hserving := h.serving a
  have hlinked := h.linked a
  have hconn : ∀ {m : Nat}, (s.pc a).holds = some m → (next.msgs m).conn = (s.msgs m).conn :=
    fun hm => hinstr.msg_conn (State.lt_of_live (howned.held hm).1)
  generalize s.pc a = pc at hinstr hserving hlinked hconn
  have hresume : ∀ {resume : Resume} {c' : Nat}, pc = .closeRef c' resume ∨
      pc = .closeFree c' resume → next.msgs = s.msgs →
      (resume.pc : Pc P).serves next.msgs = some c →
      pc.serves s.msgs = some c := by
    intro resume c' hpc hmsgs hserves
    cases resume with
    | poll => exact absurd hserves (by simp [Resume.pc, Pc.serves])
    | finish m origin =>
        have hlink : (s.msgs m).conn = c' := by
          rcases hpc with rfl | rfl <;> exact hlinked c' m rfl
        rw [hmsgs] at hserves
        simp only [Resume.pc, Pc.serves, Option.some.injEq] at hserves
        rcases hpc with rfl | rfl <;> exact congrArg some (hlink.symm.trans hserves)
  cases hinstr
  case close t' c' owner resume howner => exact hserving c hc
  case closeBusy t' c' resume href => exact hserving c (hresume (Or.inl rfl) rfl hc)
  case closeLast t' c' resume href => exact hserving c hc
  case closeDel t' c' resume => exact hserving c hc
  case closeFd t' c' resume => exact hserving c hc
  case closeFree t' c' resume => exact hserving c (hresume (Or.inr rfl) rfl hc)
  case respond t' m c' origin pieces out sent encodes hc' hsent hencodes =>
    refine hserving c ?_
    split at hc
    · rw [← hc, hc']
      rfl
    · rw [← hc]
      exact congrArg some (hconn rfl).symm
  case process t' m response =>
    refine hserving c ?_
    rw [← hc]
    exact congrArg some (hconn rfl).symm
  case readClose t' fd c' out decoded conn chunks hslot halive hread =>
    obtain rfl : c' = c := Option.some.inj hc
    exact ⟨t', rfl, h.slots t' fd c' (Or.inl hslot)⟩
  case request t' fd c' out decoded conn chunks request hslot halive hread =>
    have hnew : ((((s.receive c' conn chunks).xvMessageInit c' request none).msgs s.nextMsg).conn) =
        c' := by
      simp [State.xvMessageInit, State.addRef, State.setConn, State.receive]
    obtain rfl : c' = c := by
      rw [← hnew]
      split at hc <;> exact Option.some.inj hc
    exact ⟨t', rfl, h.slots t' fd c' (Or.inl hslot)⟩
  case write t' fd c' out sent hslot halive hsent =>
    split at hc
    · obtain rfl : c' = c := Option.some.inj hc
      exact ⟨t', rfl, h.slots t' fd c' (Or.inr hslot)⟩
    · exact absurd hc (by simp [Pc.serves])
  case returnPop t' m rest hqueue =>
    obtain rfl : (s.msgs m).conn = c := Option.some.inj hc
    exact ⟨t', rfl, h.queued t' m (by rw [hqueue]; exact List.mem_cons_self)⟩
  case returnedOpen t' m hstatus => exact hserving c hc
  case returnedClosed t' m hstatus => exact hserving c hc
  case finish t' m origin => cases origin <;> exact absurd hc (by simp [Origin.pc, Pc.serves])
  case work i thread hrun hstep =>
    cases hthread : thread.pc <;> simp [hthread, WorkerPc.callback, Pc.serves] at hc
  all_goals exact absurd hc (by simp [Pc.serves])

theorem State.Affine.instr_pushing (h : s.Affine) {a : Agent} {act : Act P} {next : State P}
    {pc' : Pc P} (hinstr : Instr cfg ctl s a (s.pc a) act next pc') (t m : Nat)
    (hpush : pc'.pushes = some (t, m)) :
    (s.pc a).holds = some m ∧ s.owner (s.msgs m).conn = some t := by
  have hlinked := h.linked a
  generalize s.pc a = pc at hinstr hlinked
  cases hinstr
  case taskFetch i m' t' howner =>
    obtain ⟨rfl, rfl⟩ : t' = t ∧ m' = m := by simpa [Pc.pushes] using hpush
    exact ⟨rfl, howner⟩
  case sendFetch u c m' t' howner =>
    obtain ⟨rfl, rfl⟩ : t' = t ∧ m' = m := by simpa [Pc.pushes] using hpush
    rw [hlinked c m' rfl]
    exact ⟨rfl, howner⟩
  case closeBusy t' c resume _ | closeFree t' c resume =>
    cases resume <;> exact absurd hpush (by simp [Resume.pc, Pc.pushes])
  case respond | write | request => split at hpush <;> exact absurd hpush (by simp [Pc.pushes])
  case finish t' m' origin =>
    cases origin <;> exact absurd hpush (by simp [Origin.pc, Pc.pushes])
  case work i thread hrun hstep =>
    cases hthread : thread.pc <;> simp [hthread, WorkerPc.callback, Pc.pushes] at hpush
  all_goals exact absurd hpush (by simp [Pc.pushes])

theorem State.Affine.instr_linked (h : s.Affine) (howned : s.Owned) {a : Agent} {act : Act P}
    {next : State P} {pc' : Pc P} (hinstr : Instr cfg ctl s a (s.pc a) act next pc') (c m : Nat)
    (hlink : pc'.links = some (c, m)) : (next.msgs m).conn = c := by
  have hlinked := h.linked a
  have hconn : ∀ m', (s.pc a).holds = some m' → (next.msgs m').conn = (s.msgs m').conn :=
    fun m' hm' => hinstr.msg_conn (State.lt_of_live (howned.held hm').1)
  have hkeep : (s.pc a).links = some (c, m) → (next.msgs m).conn = c := fun hold =>
    (hconn m (Pc.holds_of_links hold)).trans (hlinked c m hold)
  generalize s.pc a = pc at hinstr hlinked hconn hkeep
  cases hinstr
  case close t c' owner resume howner | closeLast t c' resume href | closeDel t c' resume
      | closeFd t c' resume =>
    cases resume with
    | poll => exact absurd hlink (by simp [Pc.links])
    | finish m' origin => exact hkeep hlink
  case closeBusy t c' resume _ | closeFree t c' resume =>
    cases resume <;> exact absurd hlink (by simp [Resume.pc, Pc.links])
  case respond t m' c' origin pieces out sent encodes hc hsent hencodes =>
    split at hlink
    · obtain ⟨rfl, rfl⟩ : c' = c ∧ m' = m := by simpa [Pc.links] using hlink
      rw [hconn m' rfl, hc]
    · exact absurd hlink (by simp [Pc.links])
  case sendInit u c' package =>
    obtain ⟨rfl, rfl⟩ : c' = c ∧ s.nextMsg = m := by simpa [Pc.links] using hlink
    simp [State.xvMessageInit, State.addRef, State.setConn]
  case write | request => split at hlink <;> exact absurd hlink (by simp [Pc.links])
  case finish t m' origin =>
    cases origin <;> exact absurd hlink (by simp [Origin.pc, Pc.links])
  case work i thread hrun hstep =>
    cases hthread : thread.pc <;> simp [hthread, WorkerPc.callback, Pc.links] at hlink
  all_goals exact absurd hlink (by simp [Pc.links])

/-- One instruction. -/
theorem State.Affine.instr (h : s.Affine) (hadopted : s.Adopted) (hcounted : s.Counted)
    (howned : s.Owned) {a : Agent} {act : Act P} {next : State P} {pc' : Pc P}
    (hinstr : Instr cfg ctl s a (s.pc a) act next pc') : (next.goto a pc').Affine := by
  have hmono : ∀ {c t : Nat}, s.owner c = some t → next.owner c = some t :=
    hadopted.owner_mono hinstr
  have hother : ∀ {b : Agent}, b ≠ a → (next.goto a pc').pc b = s.pc b := fun hb => by
    rw [State.goto_pc_of_ne _ _ hb, hinstr.pc_eq]
  have hconn : ∀ {b : Agent} {m : Nat}, (s.pc b).holds = some m →
      (next.msgs m).conn = (s.msgs m).conn :=
    fun hm => hinstr.msg_conn (State.lt_of_live (howned.held hm).1)
  refine ⟨fun c hc => h.instr_ids hinstr c hc,
    fun t fd c => h.instr_slots hadopted hcounted howned hinstr t fd c, ?_, ?_, ?_, ?_⟩
  · intro t m hm
    show next.owner (next.msgs m).conn = some t
    rcases hinstr.messageQueue_mem hm with hold | hpush
    · rw [hinstr.msg_conn (State.lt_of_live (howned.queued_live hold))]
      exact hmono (h.queued t m hold)
    · rw [hconn (Pc.holds_of_pushes hpush)]
      exact hmono (h.pushing a t m hpush)
  · intro b c hc
    show ∃ t, b = .io t ∧ next.owner c = some t
    by_cases hb : b = a
    · subst hb
      rw [State.goto_pc_self] at hc
      obtain ⟨t, ht, howner⟩ := h.instr_serving howned hinstr c hc
      exact ⟨t, ht, hmono howner⟩
    · rw [hother hb] at hc
      have hc : (s.pc b).serves next.msgs = some c := hc
      rw [Pc.serves_congr _ fun m hm => hconn hm] at hc
      obtain ⟨t, ht, howner⟩ := h.serving b c hc
      exact ⟨t, ht, hmono howner⟩
  · intro b t m hpush
    show next.owner (next.msgs m).conn = some t
    by_cases hb : b = a
    · subst hb
      rw [State.goto_pc_self] at hpush
      obtain ⟨hholds, howner⟩ := h.instr_pushing hinstr t m hpush
      rw [hconn hholds]
      exact hmono howner
    · rw [hother hb] at hpush
      rw [hconn (Pc.holds_of_pushes hpush)]
      exact hmono (h.pushing b t m hpush)
  · intro b c m hlink
    by_cases hb : b = a
    · subst hb
      rw [State.goto_pc_self] at hlink
      exact h.instr_linked howned hinstr c m hlink
    · rw [hother hb] at hlink
      exact (hconn (Pc.holds_of_links hlink)).trans (h.linked b c m hlink)

theorem State.Affine.refs (h : s.Affine) {next : State P} (hsame : s.SameButRefs next) :
    next.Affine where
  ids := by
    intro c hc
    obtain ⟨refCount, userRefs, hconn⟩ := hsame.conns c
    rw [hconn]
    exact h.ids c (hsame.nextConn ▸ hc)
  slots := by
    intro t fd c hslot
    rw [hsame.owner]
    exact h.slots t fd c (hsame.io ▸ hslot)
  queued := by
    intro t m hm
    rw [hsame.owner, hsame.msgs]
    exact h.queued t m (hsame.io ▸ hm)
  serving := by
    intro a c hc
    rw [hsame.pc, hsame.msgs] at hc
    rw [hsame.owner]
    exact h.serving a c hc
  pushing := by
    intro a t m hm
    rw [hsame.pc] at hm
    rw [hsame.owner, hsame.msgs]
    exact h.pushing a t m hm
  linked := by
    intro a c m hm
    rw [hsame.pc] at hm
    rw [hsame.msgs]
    exact h.linked a c m hm

theorem State.Affine.init : (State.init : State P).Affine where
  ids := fun c hc => absurd hc (Nat.not_lt_zero c)
  slots := fun t fd c h => by rcases h with h | h <;> cases h
  queued := fun t m h => absurd h List.not_mem_nil
  serving := fun a c h => by cases a <;> cases h
  pushing := fun a t m h => by cases a <;> cases h
  linked := fun a c m h => by cases a <;> cases h

/-- Two threads in a callback of one connection are one. -/
theorem State.Affine.serving_unique (h : s.Affine) {a b : Agent} {c : Nat}
    (ha : (s.pc a).serves s.msgs = some c) (hb : (s.pc b).serves s.msgs = some c) : a = b := by
  obtain ⟨t, rfl, ht⟩ := h.serving a c ha
  obtain ⟨u, rfl, hu⟩ := h.serving b c hb
  rw [ht] at hu
  rw [Option.some.inj hu]

/-! ### Every reachable state -/

/-- What holds of every state of a service, whatever its steps have met. -/
structure State.Sound (s : State P) : Prop where
  owned : s.Owned
  counted : s.Counted
  adopted : s.Adopted
  affine : s.Affine

theorem State.Sound.init : (State.init : State P).Sound :=
  ⟨.init, .init, .init, .init⟩

theorem State.Sound.step (h : s.Sound) {label : Label P} {s' : State P}
    (hstep : s.step cfg ctl label = some s') : s'.Sound := by
  refine ⟨h.owned.step hstep, h.counted.step h.owned hstep,
    h.adopted.step h.owned.resting hstep, ?_⟩
  rcases State.step_split hstep with ⟨a, act, next, pc, -, -, hinstr, rfl⟩ | hsame
  · exact h.affine.instr h.adopted h.counted h.owned hinstr
  · exact h.affine.refs hsame

/-- A connection whose callback a thread is in has been adopted. -/
theorem State.Sound.lt_of_serves (h : s.Sound) {a : Agent} {c : Nat}
    (hserves : (s.pc a).serves s.msgs = some c) : c < s.nextConn ∧ s.owner c ≠ none := by
  obtain ⟨t, -, howner⟩ := h.affine.serving a c hserves
  exact ⟨h.adopted.known c t howner, by simp [howner]⟩

/-- **Every reachable state is sound.** -/
theorem State.sound {ok : State P → Label P → Prop}
    (h : Reach (State.step cfg ctl) ok (· = State.init) s) : s.Sound := by
  refine h.invariant ?_ fun _ _ _ hs _ hstep => hs.step hstep
  intro s hs
  subst hs
  exact State.Sound.init

/-- What holds at the start and is kept by every step of a sound service holds in every state
reached. -/
theorem State.invariant {ok : State P → Label P → Prop} {I : State P → Prop}
    (h : Reach (State.step cfg ctl) ok (· = State.init) s) (h0 : I State.init)
    (hkeep : ∀ s label s', s.Sound → I s → ok s label → s.step cfg ctl label = some s' → I s') :
    I s := by
  refine h.invariant_along ?_ fun s label s' hreach hs hok hstep =>
    hkeep s label s' (State.sound hreach) hs hok hstep
  intro s hs
  subst hs
  exact h0

end Libxv
