import ContentApi.Proofs.Results
import ContentApi.Proofs.Url.Percent
import ContentApi.Url.Resolve
import Mathlib

/-! No authority of the web ends in a blank or a control. -/

namespace ContentApi

/-- Whether a character is cut off at the ends of the text of an address. -/
def isUrlEdge (c : Char) : Bool :=
  decide (c.toNat ≤ 0x20)

/-- What is cut off at the ends of an address is no letter and no digit, but one byte. -/
structure IsControl (c : Char) : Prop where
  lower : c.toLower = c
  noDigit : c.isDigit = false
  noHex : hexValue? c = none
  byte : String.utf8EncodeChar c = [UInt8.ofNat c.toNat]

/-- What is cut off at the ends of an address is a blank or a control. -/
theorem isControl_of_isUrlEdge {c : Char} (edge : isUrlEdge c = true) : IsControl c := by
  have low : c.toNat ≤ 0x20 := of_decide_eq_true edge
  -- There are few of them, so they are looked at one by one.
  have all : ∀ n < 0x21, (Char.ofNat n).toLower = Char.ofNat n ∧ (Char.ofNat n).isDigit = false ∧
      hexValue? (Char.ofNat n) = none ∧ String.utf8EncodeChar (Char.ofNat n) = [UInt8.ofNat n] := by
    decide
  obtain ⟨lower, noDigit, noHex, byte⟩ := all c.toNat (by omega)
  rw [Char.ofNat_toNat] at lower noDigit noHex byte
  exact ⟨lower, noDigit, noHex, byte⟩

/-- What is cut off at the ends of an address is not visible. -/
theorem ne_of_isUrlEdge {c d : Char} (edge : isUrlEdge c = true) (visible : 0x20 < d.toNat) :
    c ≠ d := by
  -- What is cut off are controls and blanks, which come first in the table of characters.
  have low : c.toNat ≤ 0x20 := of_decide_eq_true edge
  rintro rfl
  omega

/-- What is cut off at the ends of an address is told from what is visible. -/
theorem beq_of_isUrlEdge {c d : Char} (edge : isUrlEdge c = true) (visible : 0x20 < d.toNat) :
    (c == d) = false :=
  beq_eq_false_iff_ne.mpr (ne_of_isUrlEdge edge visible)

section

variable {c : Char} (edge : isUrlEdge c = true)
include edge

/-- What an encoded text ends in is the last byte of the decoded one, if it is a blank or a
control. -/
theorem percentDecode_edge (cs : List Char) :
    percentDecode (cs ++ [c]) = percentDecode cs ++ [UInt8.ofNat c.toNat] := by
  rw [percentDecode_concat (isControl_of_isUrlEdge edge).noHex, (isControl_of_isUrlEdge edge).byte]

/-- No host of the web ends in a blank or a control. -/
theorem Host.ofSpecial_edge (cs : List Char) (host : Host) :
    Host.ofSpecial (cs ++ [c]) ≠ .ok host := by
  intro ok
  have low : c.toNat ≤ 0x20 := of_decide_eq_true edge
  rw [Host.ofSpecial.eq_def] at ok
  split at ok
  · rename_i rest bracket
    have last : rest.getLast? ≠ some ']' := fun last => by
      have same := congrArg List.getLast? bracket
      rw [List.getLast?_concat, List.getLast?_cons, last] at same
      exact ne_of_isUrlEdge edge (by decide) (Option.some.inj same)
    rw [bracketedHost, if_neg last] at ok
    cases ok
  · -- However broken the bytes before it are, the last one is a character of the name.
    have value : (UInt8.ofNat c.toNat).toNat = c.toNat :=
      UInt8.toNat_ofNat_of_lt' (show c.toNat < 256 by omega)
    have member := mem_utf8Chars_concat (b := UInt8.ofNat c.toNat) (by omega)
      (percentDecode cs) none nofun
    rw [value, Char.ofNat_toNat] at member
    have forbidden : ((textOfUtf8 (percentDecode (cs ++ [c]))).toList.map Char.toLower).any
        isForbiddenInDomain = true := by
      rw [percentDecode_edge edge, textOfUtf8, String.toList_ofList, List.any_map, List.any_eq_true]
      refine ⟨c, member, ?_⟩
      show isForbiddenInDomain c.toLower = true
      rw [(isControl_of_isUrlEdge edge).lower, isForbiddenInDomain, decide_eq_true low]
      rfl
    simp only [forbidden, if_true] at ok
    cases ok

/-- A port does not end in a blank or a control. -/
theorem portOf_edge (scheme cs : List Char) (port : Option Nat) :
    portOf scheme (cs ++ [c]) ≠ .ok port := by
  intro ok
  -- A port has nothing but digits, and what stands at an edge is none.
  have digits : (cs ++ [c]).all Char.isDigit = false := by
    rw [List.all_append, List.all_cons, (isControl_of_isUrlEdge edge).noDigit, Bool.false_and,
      Bool.and_false]
  rw [portOf, if_neg (by simp), digits, if_pos (by decide)] at ok
  cases ok

end

/-- A host reaches up to a colon, or else to the end of the text. -/
theorem hostPart_concat {c : Char} (noColon : c ≠ ':') (cs : List Char) (inBrackets : Bool) :
    hostPart inBrackets (cs ++ [c]) = cs ++ [c] ∨
      ∃ rest, cs ++ [c] = hostPart inBrackets (cs ++ [c]) ++ ':' :: (rest ++ [c]) := by
  induction cs generalizing inBrackets with
  | nil => exact .inl (by rw [List.nil_append, hostPart, if_neg (fun both => noColon both.1)]; rfl)
  | cons d rest ih =>
    rw [List.cons_append, hostPart]
    by_cases colon : d = ':' ∧ !inBrackets
    · rw [if_pos colon, colon.1]
      exact .inr ⟨rest, rfl⟩
    · rw [if_neg colon]
      -- A bracket is told by the next character, so the rest is read in either way.
      rcases ih (if d = '[' then true else if d = ']' then false else inBrackets) with
        whole | ⟨port, whole⟩
      · exact .inl (by rw [whole])
      · exact .inr ⟨port, by rw [List.cons_append, ← whole]⟩

/-- The text of an authority without the names in front of its host. -/
def serverChars (cs : List Char) : List Char :=
  cs.rtakeWhile (· ≠ '@')

/-- A text without an at sign is all server. -/
theorem splitLastAt_server (cs : List Char) :
    ((splitLastAt cs).map Prod.snd).getD cs = serverChars cs := by
  rw [splitLastAt]
  -- Either the last at sign is inside the text, or all of the text stands behind it.
  by_cases shorter : ((cs.reverse.takeWhile (· ≠ '@')).reverse).length < cs.length
  · rw [if_pos shorter]
    rfl
  · rw [if_neg shorter]
    have whole : cs.reverse.takeWhile (· ≠ '@') = cs.reverse :=
      (List.takeWhile_prefix _).eq_of_length_le (by simpa using shorter)
    rw [serverChars, List.rtakeWhile, whole, List.reverse_reverse]
    rfl

/-- An authority that was read has a host and a port that can be read. -/
theorem exists_host_of_authorityOf {scheme cs : List Char} {isLast : Bool} {read : Authority}
    (special : isSpecialScheme scheme = true) (ok : authorityOf scheme cs isLast = .ok read) :
    hostPart false (serverChars cs) ≠ [] ∧
      Host.ofSpecial (hostPart false (serverChars cs)) = .ok read.host ∧
      portOf scheme
        (((serverChars cs).drop (hostPart false (serverChars cs)).length).drop 1) =
          .ok read.port := by
  rw [authorityOf, special] at ok
  rw [← splitLastAt_server]
  -- Only who is named depends on whether there is an at sign.
  rcases found : splitLastAt cs with _ | ⟨userInfo, server⟩
  all_goals
    rw [found] at ok
    simp only [true_or, and_true] at ok
    simp only [Option.map_none, Option.map_some, Option.getD_none, Option.getD_some]
    split at ok
    · cases ok
    · rename_i nonempty
      obtain ⟨host, readHost, ok⟩ := bind_ok_iff.mp ok
      obtain ⟨port, readPort, ok⟩ := bind_ok_iff.mp ok
      cases ok
      exact ⟨fun none => nonempty (by rw [none]; rfl), readHost, readPort⟩

/-- No authority of the web ends in a blank or a control. -/
theorem authorityOf_edge {scheme : List Char} {c : Char} (special : isSpecialScheme scheme = true)
    (edge : isUrlEdge c = true) (cs : List Char) (isLast : Bool) (read : Authority) :
    authorityOf scheme (cs ++ [c]) isLast ≠ .ok read := by
  intro ok
  obtain ⟨nonempty, host, port⟩ := exists_host_of_authorityOf special ok
  have server : serverChars (cs ++ [c]) = serverChars cs ++ [c] :=
    List.rtakeWhile_concat_pos _ _ _ (by simpa using ne_of_isUrlEdge edge (by decide))
  rw [server] at host port
  -- The last character belongs to the host or to the port, and neither can end in it.
  rcases hostPart_concat (ne_of_isUrlEdge edge (by decide)) (serverChars cs) false with
    whole | ⟨rest, whole⟩
  · rw [whole] at host
    exact Host.ofSpecial_edge edge _ _ host
  · generalize hostPart false (serverChars cs ++ [c]) = hostText at whole port
    rw [whole, List.drop_left] at port
    exact portOf_edge edge _ _ _ port

end ContentApi
