import Mathlib.Tactic.Common
import Whereabouts.Json.Parser
import Whereabouts.Json.Printer

/-! Numbers and quoted texts read back as they were printed, whatever text follows them. -/
namespace Whereabouts

namespace Json

/-- The text behind a number does not go on with it. -/
def Ends (rest : List Char) : Prop :=
  ∀ c ∈ rest.head?, digit? c = none ∧ c ≠ '.' ∧ c ≠ 'e' ∧ c ≠ 'E'

lemma ends_nil : Ends [] := nofun

/-- The text behind digits does not go on with them. -/
def EndsDigits (rest : List Char) : Prop := ∀ c ∈ rest.head?, digit? c = none

lemma Ends.endsDigits {rest : List Char} (h : Ends rest) : EndsDigits rest :=
  fun c hc => (h c hc).1

lemma endsDigits_cons {c : Char} (h : digit? c = none) (rest : List Char) :
    EndsDigits (c :: rest) := by
  simpa [EndsDigits] using h

lemma takeDigits_of_ends {rest : List Char} (h : EndsDigits rest) :
    takeDigits rest = ([], rest) := by
  cases rest with
  | nil => rfl
  | cons c rest => rw [takeDigits, h c rfl]

lemma takeDigits_map {rest : List Char} (h : EndsDigits rest) (ds : List Digit) :
    takeDigits (ds.map digitChar ++ rest) = (ds, rest) := by
  induction ds with
  | nil => exact takeDigits_of_ends h
  | cons d ds ih => rw [List.map_cons, List.cons_append, takeDigits, digit?_digitChar, ih]

lemma digits_zero : digits 0 = [Digit.zero] := by
  rw [digits]
  rfl

/-- Only zero is written with a leading zero. -/
lemma head_digits_ne_zero {n : Nat} (hn : n ≠ 0) : (digits n).head? ≠ some Digit.zero := by
  induction n using Nat.strongRecOn with
  | _ n ih =>
    rw [digits]
    split_ifs with h
    · intro hzero
      exact hn (congrArg Fin.val (Option.some.inj hzero))
    · rw [List.head?_append, Option.or_of_isSome (by simpa using digits_ne_nil _)]
      exact ih (n / 10) (by omega) (by omega)

lemma digitChar_eq_zero {d : Digit} : digitChar d = '0' ↔ d = Digit.zero := by
  revert d
  decide

lemma readWhole_digits {rest : List Char} (h : EndsDigits rest) (n : Nat) :
    readWhole ((digits n).map digitChar ++ rest) = some (n, rest) := by
  by_cases hn : n = 0
  · subst hn
    rw [digits_zero]
    rfl
  · obtain ⟨d, ds, hds⟩ := List.exists_cons_of_ne_nil (digits_ne_nil n)
    have hne : digitChar d ≠ '0' := by
      rw [Ne, digitChar_eq_zero]
      rintro rfl
      exact head_digits_ne_zero hn (by rw [hds]; rfl)
    have hall : takeDigits ((digits n).map digitChar ++ rest) = (digits n, rest) :=
      takeDigits_map h _
    rw [hds, List.map_cons, List.cons_append] at hall ⊢
    rw [readWhole, hall]
    · simp only
      rw [← hds, spelled_digits]
    · intro t ht
      exact hne (List.cons.inj ht).1

lemma readPower_digits {rest : List Char} (h : EndsDigits rest) (negative : Bool) (n : Nat) :
    readPower negative ((digits n).map digitChar ++ rest) =
      some (some (if negative then -(n : Int) else n), rest) := by
  obtain ⟨d, ds, hds⟩ := List.exists_cons_of_ne_nil (digits_ne_nil n)
  rw [readPower, takeDigits_map h, hds]
  simp only
  rw [← hds, spelled_digits]

/-- The characters of an exponent. -/
def exponentChars : Option Int → List Char
  | none => []
  | some e => 'e' :: Numeral.intText e

/-- The characters behind a point, with the point. -/
def fractionChars (fraction : List Digit) : List Char :=
  if fraction = [] then [] else '.' :: fraction.map digitChar

lemma readExponent_chars {rest : List Char} (h : Ends rest) (exponent : Option Int) :
    readExponent (exponentChars exponent ++ rest) = some (exponent, rest) := by
  cases exponent with
  | none =>
    cases rest with
    | nil => rfl
    | cons c rest =>
      have hc : ¬ (c = 'e' ∨ c = 'E') := by
        rintro (rfl | rfl)
        · exact (h _ rfl).2.2.1 rfl
        · exact (h _ rfl).2.2.2 rfl
      simp [exponentChars, readExponent, hc]
  | some e =>
    by_cases he : e < 0
    · have hback : -(e.natAbs : Int) = e := by omega
      simp only [exponentChars, Numeral.intText, readExponent, he, List.cons_append, true_or,
        if_true, readPower_digits h.endsDigits, hback]
    · have hback : (e.natAbs : Int) = e := by omega
      simp only [exponentChars, Numeral.intText, readExponent, he, List.cons_append, true_or,
        if_true, if_false, readPower_digits h.endsDigits, hback]
      rfl

lemma endsDigits_exponent {rest : List Char} (h : Ends rest) (exponent : Option Int) :
    EndsDigits (exponentChars exponent ++ rest) := by
  cases exponent with
  | none => exact h.endsDigits
  | some e => exact endsDigits_cons (by decide) _

lemma readFraction_of_ne {cs : List Char} (h : ∀ c ∈ cs.head?, c ≠ '.') :
    readFraction cs = some ([], cs) := by
  unfold readFraction
  split
  · exact absurd rfl (h '.' rfl)
  · rfl

lemma readFraction_chars {rest : List Char} (h : Ends rest) (fraction : List Digit)
    (exponent : Option Int) :
    readFraction (fractionChars fraction ++ (exponentChars exponent ++ rest)) =
      some (fraction, exponentChars exponent ++ rest) := by
  cases fraction with
  | nil =>
    refine readFraction_of_ne fun c hc => ?_
    cases exponent with
    | none => exact (h c hc).2.1
    | some e =>
      obtain rfl : 'e' = c := Option.some.inj hc
      decide
  | cons d ds =>
    have hall := takeDigits_map (endsDigits_exponent h exponent) (d :: ds)
    rw [List.map_cons, List.cons_append] at hall
    simp only [fractionChars, reduceCtorEq, if_false, List.map_cons, List.cons_append,
      readFraction, hall]

lemma endsDigits_fraction {rest : List Char} (h : EndsDigits rest) (fraction : List Digit) :
    EndsDigits (fractionChars fraction ++ rest) := by
  unfold fractionChars
  split_ifs
  · exact h
  · exact endsDigits_cons (by decide) _

lemma numeral_chars_eq (n : Numeral) :
    n.chars = (if n.negative then ['-'] else []) ++ ((digits n.whole).map digitChar ++
      (fractionChars n.fraction ++ exponentChars n.exponent)) := by
  obtain ⟨negative, whole, fraction, exponent⟩ := n
  cases exponent <;> simp [Numeral.chars, fractionChars, exponentChars]

lemma readSign_digits (n : Nat) (rest : List Char) :
    readSign ((digits n).map digitChar ++ rest) = (false, (digits n).map digitChar ++ rest) := by
  obtain ⟨d, ds, hds⟩ := List.exists_cons_of_ne_nil (digits_ne_nil n)
  have hne : digitChar d ≠ '-' := by
    clear hds
    revert d
    decide
  rw [hds, List.map_cons, List.cons_append]
  unfold readSign
  split
  case h_1 h => exact absurd (List.cons.inj h).1 hne
  case h_2 => rfl

theorem readNumeral_chars {rest : List Char} (h : Ends rest) (n : Numeral) :
    readNumeral (n.chars ++ rest) = some (n, rest) := by
  have hwhole := readWhole_digits
    (endsDigits_fraction (endsDigits_exponent h n.exponent) n.fraction) n.whole
  have hsign : readSign (n.chars ++ rest) = (n.negative, (digits n.whole).map digitChar ++
      (fractionChars n.fraction ++ (exponentChars n.exponent ++ rest))) := by
    rw [numeral_chars_eq]
    cases n.negative with
    | true => simp [readSign]
    | false => simpa using readSign_digits n.whole _
  rw [readNumeral, hsign]
  simp only [hwhole, readFraction_chars h, readExponent_chars h, Option.bind_eq_bind,
    Option.bind_some]

/-- A piece that spells a character, whatever pieces follow it. -/
def Piece.Spells (p : Piece) (c : Char) : Prop :=
  ∀ ps, spell? (p :: ps) = (spell? ps).map (c :: ·)

lemma spells_char (c : Char) : (Piece.char c).Spells c := fun _ => rfl

/-- Units below the surrogates are characters by themselves. -/
lemma spells_unit {c : Char} (h : c.toNat < 32) : (Piece.unit c.toNat).Spells c := by
  have hlead : isLead c.toNat = false := by simp [isLead]; omega
  have htrail : isTrail c.toNat = false := by simp [isTrail]; omega
  intro ps
  match ps with
  | [] | .char _ :: _ => simp [spell?, hlead, htrail]
  | .unit _ :: _ => simp [spell?, hlead, htrail]

lemma hexUnit?_control :
    ∀ n < 32, hexUnit? '0' '0' (hexChar (n / 16)) (hexChar (n % 16)) = some n := by decide

lemma readPieces_escape {e c : Char} (hu : e ≠ 'u') (h : escaped? e = some c) (cs : List Char) :
    readPieces ('\\' :: e :: cs) = (readPieces cs).map fun (ps, r) => (.char c :: ps, r) := by
  rw [readPieces.eq_4 _ _ fun _ _ _ _ _ he => absurd he hu, h]
  cases readPieces cs <;> rfl

lemma readPieces_control {c : Char} (h : c.toNat < 32) (cs : List Char) :
    readPieces ('\\' :: 'u' :: '0' :: '0' ::
        hexChar (c.toNat / 16) :: hexChar (c.toNat % 16) :: cs) =
      (readPieces cs).map fun (ps, r) => (.unit c.toNat :: ps, r) := by
  rw [readPieces.eq_3, hexUnit?_control _ h]
  cases readPieces cs <;> rfl

lemma readPieces_plain {c : Char} (hquote : c ≠ '"') (hslash : c ≠ '\\') (h : ¬ c.toNat < 32)
    (cs : List Char) :
    readPieces (c :: cs) = (readPieces cs).map fun (ps, r) => (.char c :: ps, r) := by
  rw [readPieces.eq_5 _ _ hquote (fun _ _ _ _ _ hc => absurd hc hslash)
    fun _ _ hc => absurd hc hslash, if_neg (not_or.mpr ⟨hslash, h⟩)]
  cases readPieces cs <;> rfl

/-- A printed character reads as one piece, which spells it. -/
lemma readPieces_quotedChar (c : Char) (cs : List Char) :
    ∃ p : Piece, p.Spells c ∧
      readPieces (quotedChar c ++ cs) = (readPieces cs).map fun (ps, r) => (p :: ps, r) := by
  have hescape {e c : Char} (hu : e ≠ 'u') (h : escaped? e = some c) :
      ∃ p : Piece, p.Spells c ∧
        readPieces (['\\', e] ++ cs) = (readPieces cs).map fun (ps, r) => (p :: ps, r) :=
    ⟨.char c, spells_char c, readPieces_escape hu h cs⟩
  unfold quotedChar
  split_ifs with hquote hslash hb ht hn hf hr hcontrol
  · subst hquote
    exact hescape (by decide) rfl
  · subst hslash
    exact hescape (by decide) rfl
  · subst hb
    exact hescape (by decide) rfl
  · subst ht
    exact hescape (by decide) rfl
  · subst hn
    exact hescape (by decide) rfl
  · subst hf
    exact hescape (by decide) rfl
  · subst hr
    exact hescape (by decide) rfl
  · exact ⟨.unit c.toNat, spells_unit hcontrol, readPieces_control hcontrol cs⟩
  · exact ⟨.char c, spells_char c, readPieces_plain hquote hslash hcontrol cs⟩

lemma readPieces_quoted (cs rest : List Char) :
    ∃ ps, readPieces (cs.flatMap quotedChar ++ '"' :: rest) = some (ps, rest) ∧
      spell? ps = some cs := by
  induction cs with
  | nil => exact ⟨[], rfl, rfl⟩
  | cons c cs ih =>
    obtain ⟨ps, hread, hspell⟩ := ih
    obtain ⟨p, hp, hc⟩ := readPieces_quotedChar c (cs.flatMap quotedChar ++ '"' :: rest)
    refine ⟨p :: ps, ?_, ?_⟩
    · rw [List.flatMap_cons, List.append_assoc, hc, hread]
      rfl
    · rw [hp, hspell]
      rfl

/-- A printed string reads back, from behind its first quote. -/
theorem readText_quoted (s : String) (rest : List Char) :
    readText (s.toList.flatMap quotedChar ++ '"' :: rest) = some (some s, rest) := by
  obtain ⟨ps, hread, hspell⟩ := readPieces_quoted s.toList rest
  rw [readText, hread]
  simp [hspell]

end Json
end Whereabouts
