/-
The read buffer of a connection under its callbacks.

`on_connection_read` appends the chunk that `read` delivered, `decode` takes bytes from the
front, and nothing else touches the buffer.
-/
import Libxv.Connection
import Libxv.Proofs.Buffer

namespace Libxv

variable {P : Type}

/-! ### Reading -/

/-- A read that delivered a chunk appends it. -/
theorem onConnectionRead_data {conn conn' : Conn} {out : ReadOut} (h : conn.readBuffer.WF)
    (hread : onConnectionRead conn out = (conn', .process)) :
    ∃ chunk, out = .data chunk ∧ conn'.readBuffer.WF ∧
      conn'.readBuffer.readable = conn.readBuffer.readable ++ chunk.bytes ∧
      conn'.handle = conn.handle := by
  unfold onConnectionRead at hread
  split at hread
  · simp at hread
  · cases out with
    | data chunk =>
        have hwf := xvBufferEnsureWriteableSize_wf h xvDefaultReadSize
        have hroom := xvBufferEnsureWriteableSize_room h xvDefaultReadSize
        simp only [Prod.mk.injEq, and_true] at hread
        subst hread
        refine ⟨chunk, rfl, store_wf hwf _ (Nat.le_trans chunk.le hroom), ?_, rfl⟩
        rw [append_readable hwf, xvBufferEnsureWriteableSize_readable]
    | eof => simp at hread
    | retry => simp at hread
    | error => simp at hread

/-- Bytes that arrive on an open connection go to `process_read_buffer`. -/
theorem onConnectionRead_chunk {conn : Conn} (hopen : conn.status = .opened) (chunk : Chunk) :
    ∃ conn', onConnectionRead conn (.data chunk) = (conn', .process) := by
  unfold onConnectionRead
  rw [if_neg (by simp [hopen])]
  exact ⟨_, rfl⟩

/-- A read that delivered nothing leaves the content of the read buffer alone. -/
theorem onConnectionRead_idle {conn conn' : Conn} {out : ReadOut} {next : ReadNext}
    (h : conn.readBuffer.WF) (hread : onConnectionRead conn out = (conn', next))
    (hnext : next ≠ .process) :
    conn'.readBuffer.WF ∧ conn'.readBuffer.readable = conn.readBuffer.readable := by
  have hwf := xvBufferEnsureWriteableSize_wf h xvDefaultReadSize
  have hsame := xvBufferEnsureWriteableSize_readable conn.readBuffer xvDefaultReadSize
  unfold onConnectionRead at hread
  split at hread
  · simp only [Prod.mk.injEq] at hread
    obtain ⟨rfl, -⟩ := hread
    exact ⟨h, rfl⟩
  · cases out with
    | data chunk =>
        simp only [Prod.mk.injEq] at hread
        exact absurd hread.2.symm hnext
    | eof | retry | error =>
        simp only [Prod.mk.injEq] at hread
        obtain ⟨rfl, -⟩ := hread
        exact ⟨hwf, hsame⟩

/-! ### Decoding -/

theorem consume_spec (advances : List Nat) :
    ∀ {buffer : Buffer}, buffer.WF → advances.sum ≤ xvBufferReadableSize buffer →
      (advances.foldl xvBufferIncrReadIndex buffer).WF ∧
        (advances.foldl xvBufferIncrReadIndex buffer).readable
          = buffer.readable.drop advances.sum := by
  induction advances with
  | nil => intro buffer h _; exact ⟨h, by simp⟩
  | cons n rest ih =>
      intro buffer h hfits
      rw [List.sum_cons] at hfits
      have hn : n ≤ xvBufferReadableSize buffer := by omega
      have hread := xvBufferIncrReadIndex_readable buffer n
      have hsize : xvBufferReadableSize (xvBufferIncrReadIndex buffer n)
          = xvBufferReadableSize buffer - n := by
        rw [← Buffer.length_readable, hread, List.length_drop, Buffer.length_readable]
      obtain ⟨hwf, hrest⟩ := ih (xvBufferIncrReadIndex_wf h hn) (by omega)
      refine ⟨hwf, ?_⟩
      rw [List.foldl_cons, hrest, hread, List.drop_drop, List.sum_cons]

/-! ### Everything else -/

theorem processMessage_readBuffer (ctl : EpollCtl) (loop : Loop) (conn : Conn)
    (response : Option P) (pieces : List Piece) (out : WriteOut) :
    (processMessage ctl loop conn response pieces out).conn.readBuffer = conn.readBuffer := by
  unfold processMessage advance
  dsimp only
  split
  · rfl
  · split
    · rfl
    · split
      · rfl
      · split <;> split <;> rfl

theorem onConnectionWrite_readBuffer (ctl : EpollCtl) (loop : Loop) (conn : Conn)
    (out : WriteOut) :
    (onConnectionWrite ctl loop conn out).conn.readBuffer = conn.readBuffer := by
  unfold onConnectionWrite advance
  dsimp only
  split
  · split
    · rfl
    · split <;> split <;> rfl
  · rfl

end Libxv
