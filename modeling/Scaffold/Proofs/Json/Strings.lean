import Scaffold.Json.Scan
import Scaffold.Json.Value
import Mathlib.Data.List.Basic

/-!
# Written strings are read back

Each character of a string is written as itself or as an escape.  Either way the strict reader gets
the character back, and the loose reader goes past it.
-/

namespace Scaffold.Json

open Data Value

/-! ## Hexadecimal digits -/

theorem hexValue_hexDigit : ∀ n < 16, hexValue (hexDigit n) = some n := by decide +kernel

/-- What a loose reader needs to know of a hexadecimal digit. -/
theorem hexDigit_plain : ∀ n < 16, (hexDigit n).utf8Size = 1 ∧ hexDigit n ≠ '"' ∧
    hexDigit n ≠ '\\' ∧ ¬ (hexDigit n).toNat < 0x20 := by
  decide +kernel

theorem advanceBytes_four {a b c d : Char} (h : ∀ x ∈ [a, b, c, d], x.utf8Size = 1)
    (cs : List Char) (p : Position) :
    ∃ q, advanceBytes 4 (a :: b :: c :: d :: cs) p = some q := by
  simp only [List.forall_mem_cons] at h
  obtain ⟨ha, hb, hc, hd, -⟩ := h
  simp [advanceBytes, ha, hb, hc, hd]

/-- The escape of a control character has its four hexadecimal digits. -/
theorem hexFault?_control {n : Nat} (hn : n < 0x20) (cs : List Char) (p : Position) :
    hexFault? ('0' :: '0' :: hexDigit (n / 16) :: hexDigit (n % 16) :: cs) p = none := by
  have hhigh := hexValue_hexDigit (n / 16) (by omega)
  have hlow := hexValue_hexDigit (n % 16) (by omega)
  have hzero : hexValue '0' = some 0 := by decide
  have hsize : ∀ x ∈ ['0', '0', hexDigit (n / 16), hexDigit (n % 16)], x.utf8Size = 1 := by
    simp only [List.forall_mem_cons]
    exact ⟨by decide, by decide, (hexDigit_plain _ (by omega)).1,
      (hexDigit_plain _ (by omega)).1, by simp⟩
  obtain ⟨q, hq⟩ := advanceBytes_four hsize cs p
  simp [hexFault?, hq, hhigh, hlow, hzero]

/-! ## One character -/

/-- The three ways to write a character: by a letter, by its code, or as itself. -/
theorem escape_cases (c : Char) :
    (∃ e, simpleEscape e = some c ∧ escape c = ['\\', e]) ∨
      (c.toNat < 0x20 ∧
        escape c = ['\\', 'u', '0', '0', hexDigit (c.toNat / 16), hexDigit (c.toNat % 16)]) ∨
      (c ≠ '"' ∧ c ≠ '\\' ∧ ¬ c.toNat < 0x20 ∧ escape c = [c]) := by
  unfold escape
  split_ifs with hquote hslash hback hfeed hline hreturn htab hcontrol
  · exact .inl ⟨_, by rw [hquote]; rfl, rfl⟩
  · exact .inl ⟨_, by rw [hslash]; rfl, rfl⟩
  · exact .inl ⟨_, by rw [hback]; rfl, rfl⟩
  · exact .inl ⟨_, by rw [hfeed]; rfl, rfl⟩
  · exact .inl ⟨_, by rw [hline]; rfl, rfl⟩
  · exact .inl ⟨_, by rw [hreturn]; rfl, rfl⟩
  · exact .inl ⟨_, by rw [htab]; rfl, rfl⟩
  · exact .inr (.inl ⟨hcontrol, rfl⟩)
  · exact .inr (.inr ⟨hquote, hslash, hcontrol, rfl⟩)

theorem finishHex_control {c : Char} (hc : c.toNat < 0x20) :
    finishHex c.toNat none = some (.plain, [c]) := by
  have htrailing : isTrailing c.toNat = false := by
    simp only [isTrailing, Bool.and_eq_false_iff, decide_eq_false_iff_not]
    omega
  have hleading : isLeading c.toNat = false := by
    simp only [isLeading, Bool.and_eq_false_iff, decide_eq_false_iff_not]
    omega
  simp [finishHex, htrailing, hleading]

theorem readString_escape (c : Char) (cs : List Char) (p : Position) (out : List Char) :
    ∃ q, readString .plain (escape c ++ cs) p out = readString .plain cs q (c :: out) := by
  rcases escape_cases c with ⟨e, he, h⟩ | ⟨hcontrol, h⟩ | ⟨hquote, hslash, hcontrol, h⟩
  · exact ⟨p.next.next, by simp [h, readString, he]⟩
  · have hzero : hexValue '0' = some 0 := by decide
    have hcode : c.toNat / 16 * 16 + c.toNat % 16 = c.toNat := by omega
    refine ⟨p.next.next.next.next.next.next, ?_⟩
    simp [h, readString, simpleEscape, hexFault?_control hcontrol, hzero, hcode,
      finishHex_control hcontrol, hexValue_hexDigit (c.toNat / 16) (by omega),
      hexValue_hexDigit (c.toNat % 16) (by omega)]
  · exact ⟨p.after c, by simp [h, readString, hquote, hslash, hcontrol]⟩

theorem skipString_escape (c : Char) (cs : List Char) (p : Position) :
    ∃ q, skipString false (escape c ++ cs) p = skipString false cs q := by
  rcases escape_cases c with ⟨e, he, h⟩ | ⟨hcontrol, h⟩ | ⟨hquote, hslash, hcontrol, h⟩
  · exact ⟨p.next.next, by simp [h, skipString, he]⟩
  · -- the loose reader takes the four digits for characters of the string
    obtain ⟨-, hh, hh', hh''⟩ := hexDigit_plain (c.toNat / 16) (by omega)
    obtain ⟨-, hl, hl', hl''⟩ := hexDigit_plain (c.toNat % 16) (by omega)
    refine ⟨(((p.next.next.after '0').after '0').after (hexDigit (c.toNat / 16))).after
      (hexDigit (c.toNat % 16)), ?_⟩
    simp [h, skipString, simpleEscape, hexFault?_control hcontrol, hh, hh', hh'', hl, hl', hl'']
  · exact ⟨p.after c, by simp [h, skipString, hquote, hslash, hcontrol]⟩

/-! ## Whole strings -/

theorem readString_written (cs rest : List Char) (p : Position) (out : List Char) :
    ∃ q, readString .plain (cs.flatMap escape ++ '"' :: rest) p out =
      .ok (out.reverse ++ cs, ⟨rest, q⟩) := by
  induction cs generalizing p out with
  | nil => exact ⟨p.next, by simp [readString]⟩
  | cons c cs ih =>
      obtain ⟨q, hq⟩ := readString_escape c (cs.flatMap escape ++ '"' :: rest) p out
      obtain ⟨r, hr⟩ := ih q (c :: out)
      refine ⟨r, ?_⟩
      rw [List.flatMap_cons, List.append_assoc, hq, hr]
      simp

theorem skipString_written (cs rest : List Char) (p : Position) :
    ∃ q, skipString false (cs.flatMap escape ++ '"' :: rest) p = .ok ⟨rest, q⟩ := by
  induction cs generalizing p with
  | nil => exact ⟨p.next, by simp [skipString]⟩
  | cons c cs ih =>
      obtain ⟨q, hq⟩ := skipString_escape c (cs.flatMap escape ++ '"' :: rest) p
      obtain ⟨r, hr⟩ := ih q
      exact ⟨r, by rw [List.flatMap_cons, List.append_assoc, hq, hr]⟩

theorem stringValue_written (s : String) (rest : List Char) (p : Position) :
    stringValue (s.toList.flatMap escape ++ '"' :: rest) p = .ok s := by
  obtain ⟨q, hq⟩ := readString_written s.toList rest p []
  simp [stringValue, hq, Except.map]

theorem scanStringTree_written (s : String) (rest : List Char) (start : Position) :
    ∃ stop, scanStringTree (s.toList.flatMap escape ++ '"' :: rest) start =
      (.string start stop (.ok s), some ⟨rest, stop⟩) := by
  obtain ⟨q, hq⟩ := skipString_written s.toList rest start.next
  exact ⟨q, by simp [scanStringTree, hq, stringValue_written]⟩

theorem toList_writeString (s : String) (rest : List Char) :
    (writeString s).toList ++ rest = '"' :: (s.toList.flatMap escape ++ '"' :: rest) := by
  simp [writeString]

end Scaffold.Json
