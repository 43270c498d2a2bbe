/-
The address of a client survives being written as a string.

`inet_ntop` writes at most fifteen characters, so the array of `XV_ADDR_LEN` holds the string,
and `inet_pton` reads back the address it was written for; so does `htons` the port.
-/
import Libxv.Accept
import Libxv.Proofs.Socket

namespace Libxv

/-! ### One octet -/

theorem octetDigits_ofNat : ∀ n < 256, dottedOctet (octetDigits (.ofNat n)) = some (.ofNat n) ∧
    '.' ∉ octetDigits (.ofNat n) ∧ (octetDigits (.ofNat n)).length ≤ 3 := by
  decide +kernel

theorem octetDigits_spec (octet : UInt8) : dottedOctet (octetDigits octet) = some octet ∧
    '.' ∉ octetDigits octet ∧ (octetDigits octet).length ≤ 3 := by
  have h := octetDigits_ofNat octet.toNat octet.toNat_lt
  rwa [UInt8.ofNat_toNat] at h

/-! ### The whole address -/

theorem InAddr.octets_eq (addr : InAddr) :
    addr.octets.toList =
      [addr.octets[0], addr.octets[1], addr.octets[2], addr.octets[3]] := by
  apply List.ext_getElem (by simp)
  intro i hi hi'
  simp only [List.length_cons, List.length_nil] at hi'
  rcases i with _ | _ | _ | _ | i
  · rfl
  · rfl
  · rfl
  · rfl
  · omega

/-- An address takes at most fifteen characters. -/
theorem dottedChars_length (addr : InAddr) : (dottedChars addr).length < 16 := by
  have ha := (octetDigits_spec addr.octets[0]).2.2
  have hb := (octetDigits_spec addr.octets[1]).2.2
  have hc := (octetDigits_spec addr.octets[2]).2.2
  have hd := (octetDigits_spec addr.octets[3]).2.2
  simp only [dottedChars, addr.octets_eq, List.map_cons, List.map_nil, List.intercalate,
    List.intersperse, List.flatten_cons, List.flatten_nil, List.length_append, List.length_cons,
    List.length_nil]
  omega

/-- `inet_pton` reads the address that was written. -/
theorem dottedQuad_dottedChars (addr : InAddr) :
    dottedQuad (String.ofList (dottedChars addr)) = some addr := by
  have hdots : ∀ digits ∈ addr.octets.toList.map octetDigits, '.' ∉ digits := by
    intro digits hdigits
    obtain ⟨octet, -, rfl⟩ := List.mem_map.mp hdigits
    exact (octetDigits_spec octet).2.1
  have hsplit : (dottedChars addr).splitOn '.' = addr.octets.toList.map octetDigits := by
    refine List.splitOn_intercalate '.' hdots ?_
    simp [addr.octets_eq]
  have hread : (addr.octets.toList.map octetDigits).mapM dottedOctet = some addr.octets.toList := by
    simp [addr.octets_eq, (octetDigits_spec _).1]
  have hvector : (⟨#v[addr.octets[0], addr.octets[1], addr.octets[2], addr.octets[3]]⟩ : InAddr) =
      addr := congrArg InAddr.mk (Vector.toList_inj.mp addr.octets_eq.symm)
  unfold dottedQuad
  rw [String.toList_ofList, hsplit, hread, addr.octets_eq]
  exact congrArg some hvector

theorem htons_ntohs (port : UInt16) : htons (ntohs port) = port := UInt16.ofNat_toNat ..

/-- **Where a client is can be written down and read back**, through any array of at least
sixteen characters: the string and the port lead to the client's address. -/
theorem sockAddrOf_client (sa : SockAddr) (size : Nat) (hsize : 16 ≤ size) :
    ∃ str, inetNtop sa.sinAddr size = some str ∧ strncpy str size = some str ∧
      sockAddrOf str (ntohs sa.sinPort) = sa := by
  have hlength := dottedChars_length sa.sinAddr
  refine ⟨String.ofList (dottedChars sa.sinAddr), if_pos (by omega), if_pos ?_, ?_⟩
  · simp only [String.length_ofList]
    omega
  · simp [sockAddrOf, dottedQuad_dottedChars, htons_ntohs]

end Libxv
