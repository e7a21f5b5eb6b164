import Whereabouts.Proofs.Json.Token

/-! A JSON value reads back from the text that is printed for it, on one line or on many. -/
namespace Whereabouts.Json

def Blank (cs : List Char) : Prop := ∀ c ∈ cs, isBlank c = true

lemma skipBlanks_append {blanks : List Char} (h : Blank blanks) (cs : List Char) :
    skipBlanks (blanks ++ cs) = skipBlanks cs :=
  List.dropWhile_append_of_pos h

lemma skipBlanks_cons {c : Char} (h : isBlank c = false) (cs : List Char) :
    skipBlanks (c :: cs) = c :: cs := by
  rw [skipBlanks, List.dropWhile_cons_of_neg (by simp [h])]

lemma readValue_blank {blanks : List Char} (h : Blank blanks) (fuel : Nat) (cs : List Char) :
    readValue fuel (blanks ++ cs) = readValue fuel cs := by
  cases fuel with
  | zero => rfl
  | succ fuel => rw [readValue, readValue, skipBlanks_append h]

/-- What may stand behind a value. -/
def closers : List Char := [',', ']', '\x7d']

lemma ends_blank {blanks : List Char} (h : Blank blanks) {c : Char} (hc : c ∈ closers)
    (rest : List Char) : Ends (blanks ++ c :: rest) := by
  have hcloser : digit? c = none ∧ c ≠ '.' ∧ c ≠ 'e' ∧ c ≠ 'E' := by
    simp only [closers, List.mem_cons, List.not_mem_nil, or_false] at hc
    obtain rfl | rfl | rfl := hc <;> decide
  have hblank {b : Char} (hb : isBlank b = true) :
      digit? b = none ∧ b ≠ '.' ∧ b ≠ 'e' ∧ b ≠ 'E' := by
    simp only [isBlank, Bool.or_eq_true, beq_iff_eq] at hb
    obtain ((rfl | rfl) | rfl) | rfl := hb <;> decide
  intro d hd
  cases blanks with
  | nil => exact Option.some.inj hd ▸ hcloser
  | cons b blanks => exact Option.some.inj hd ▸ hblank (h b List.mem_cons_self)

lemma ends_closer {c : Char} (hc : c ∈ closers) (rest : List Char) : Ends (c :: rest) :=
  ends_blank (show Blank [] from nofun) hc rest

/-- What a printer puts before each item at each depth and behind each colon. -/
structure Layout where
  gap : Nat → List Char
  space : List Char
  blank_gap : ∀ depth, Blank (gap depth)
  blank_space : Blank space

namespace Layout

def oneLine : Layout := ⟨fun _ => [], [], nofun, nofun⟩

lemma blank_newline (depth : Nat) : Blank (newline depth) := by
  intro c hc
  rcases List.mem_cons.mp hc with rfl | hc
  · rfl
  · rw [List.eq_of_mem_replicate hc]
    rfl

def indented : Layout := ⟨newline, [' '], blank_newline, by simp [Blank, isBlank]⟩

@[simp] lemma gap_oneLine (depth : Nat) : oneLine.gap depth = [] := rfl

@[simp] lemma space_oneLine : oneLine.space = [] := rfl

@[simp] lemma gap_indented (depth : Nat) : indented.gap depth = newline depth := rfl

@[simp] lemma space_indented : indented.space = [' '] := rfl

variable (w : Layout)

mutual
/-- The characters of a value in a layout. -/
def chars (depth : Nat) : Json → List Char
  | null => ['n', 'u', 'l', 'l']
  | bool true => ['t', 'r', 'u', 'e']
  | bool false => ['f', 'a', 'l', 's', 'e']
  | number n => n.chars
  | text s => quoted? s
  | array [] => ['[', ']']
  | array (j :: rest) => '[' :: (items (depth + 1) (j :: rest) ++ (w.gap depth ++ [']']))
  | object [] => ['\x7b', '\x7d']
  | object (m :: rest) => '\x7b' :: (members (depth + 1) (m :: rest) ++ (w.gap depth ++ ['\x7d']))
def items (depth : Nat) : List Json → List Char
  | [] => []
  | [j] => w.gap depth ++ chars depth j
  | j :: rest => w.gap depth ++ (chars depth j ++ ',' :: items depth rest)
def members (depth : Nat) : List (Option String × Json) → List Char
  | [] => []
  | [(k, j)] => w.gap depth ++ (quoted? k ++ ':' :: (w.space ++ chars depth j))
  | (k, j) :: rest =>
    w.gap depth ++ (quoted? k ++ ':' :: (w.space ++ (chars depth j ++ ',' :: members depth rest)))
end

mutual
theorem chars_indented (depth : Nat) : (j : Json) → indented.chars depth j = j.prettyChars depth
  | null | bool true | bool false | number _ | text _ | array [] | object [] => rfl
  | array (j :: rest) => by
    simp [chars, prettyChars, items_indented (depth + 1) (j :: rest)]
  | object (m :: rest) => by
    simp [chars, prettyChars, members_indented (depth + 1) (m :: rest)]
theorem items_indented (depth : Nat) :
    (js : List Json) → indented.items depth js = prettyItems depth js
  | [] => rfl
  | [j] => by simp [items, prettyItems, chars_indented depth j]
  | j :: j' :: rest => by
    simp [items, prettyItems, chars_indented depth j, items_indented depth (j' :: rest)]
theorem members_indented (depth : Nat) :
    (ms : List (Option String × Json)) → indented.members depth ms = prettyMembers depth ms
  | [] => rfl
  | [(k, j)] => by simp [members, prettyMembers, chars_indented depth j]
  | (k, j) :: m :: rest => by
    simp [members, prettyMembers, chars_indented depth j, members_indented depth (m :: rest)]
end

mutual
theorem chars_oneLine (depth : Nat) : (j : Json) → oneLine.chars depth j = j.compactChars
  | null | bool true | bool false | number _ | text _ | array [] | object [] => rfl
  | array (j :: rest) => by
    simp [chars, compactChars, items_oneLine (depth + 1) (j :: rest)]
  | object (m :: rest) => by
    simp [chars, compactChars, members_oneLine (depth + 1) (m :: rest)]
theorem items_oneLine (depth : Nat) :
    (js : List Json) → oneLine.items depth js = compactItems js
  | [] => rfl
  | [j] => by simp [items, compactItems, chars_oneLine depth j]
  | j :: j' :: rest => by
    simp [items, compactItems, chars_oneLine depth j, items_oneLine depth (j' :: rest)]
theorem members_oneLine (depth : Nat) :
    (ms : List (Option String × Json)) → oneLine.members depth ms = compactMembers ms
  | [] => rfl
  | [(k, j)] => by simp [members, compactMembers, chars_oneLine depth j]
  | (k, j) :: m :: rest => by
    simp [members, compactMembers, chars_oneLine depth j, members_oneLine depth (m :: rest)]
end

end Layout

/-- Every string and every member name in a value spells a string. -/
inductive Legible : Json → Prop
  | null : Legible null
  | bool (b : Bool) : Legible (bool b)
  | number (n : Numeral) : Legible (number n)
  | text (s : String) : Legible (text (some s))
  | array {js : List Json} : (∀ j ∈ js, Legible j) → Legible (array js)
  | object {ms : List (Option String × Json)} :
      (∀ m ∈ ms, m.1 ≠ none) → (∀ m ∈ ms, Legible m.2) → Legible (object ms)

lemma readValue_text (fuel : Nat) (s : String) (rest : List Char) :
    readValue (fuel + 1) (quoted? (some s) ++ rest) = some (text (some s), rest) := by
  have hcs : quoted? (some s) ++ rest = '"' :: (s.toList.flatMap quotedChar ++ '"' :: rest) := by
    simp [quoted?, quoted]
  rw [hcs, readValue, skipBlanks_cons (by decide)]
  simp only [readText_quoted, Option.map_some]

lemma readName_quoted {gap : List Char} (h : Blank gap) (k : String) (rest : List Char) :
    readName (gap ++ (quoted? (some k) ++ ':' :: rest)) = some (some k, rest) := by
  have hcs : quoted? (some k) ++ ':' :: rest =
      '"' :: (k.toList.flatMap quotedChar ++ '"' :: ':' :: rest) := by
    simp [quoted?, quoted]
  rw [readName, skipBlanks_append h, hcs, skipBlanks_cons (by decide)]
  simp [readText_quoted, skipBlanks_cons (show isBlank ':' = false by decide)]

lemma readValue_array {cs : List Char} (h : (skipBlanks cs).head? ≠ some ']') (fuel : Nat) :
    readValue (fuel + 1) ('[' :: cs) = (readItems fuel cs).map fun (js, r) => (array js, r) := by
  rw [readValue, skipBlanks_cons (by decide)]
  simp only
  split
  case h_1 hcs => exact absurd (congrArg List.head? hcs) h
  case h_2 => rfl

lemma readValue_object {cs : List Char} (h : (skipBlanks cs).head? ≠ some '\x7d') (fuel : Nat) :
    readValue (fuel + 1) ('\x7b' :: cs) =
      (readMembers fuel cs).map fun (ms, r) => (object ms, r) := by
  rw [readValue, skipBlanks_cons (by decide)]
  simp only
  split
  case h_1 hcs => exact absurd (congrArg List.head? hcs) h
  case h_2 => rfl

/-- How a number starts. -/
def IsNumberStart (c : Char) : Prop := c = '-' ∨ ∃ d : Digit, c = digitChar d

/-- The characters that other values start with, and those that end a list of values. -/
def marks : List Char := ['n', 't', 'f', '"', '[', '\x7b', ']', '\x7d']

lemma IsNumberStart.not_mark {c : Char} (h : IsNumberStart c) : isBlank c = false ∧ c ∉ marks := by
  obtain rfl | ⟨d, rfl⟩ := h
  · decide
  · revert d
    decide

lemma numeral_head (n : Numeral) : ∃ c cs, n.chars = c :: cs ∧ IsNumberStart c := by
  obtain ⟨d, ds, hds⟩ := List.exists_cons_of_ne_nil (digits_ne_nil n.whole)
  rw [numeral_chars_eq, hds]
  cases n.negative with
  | true => exact ⟨'-', _, rfl, .inl rfl⟩
  | false => exact ⟨digitChar d, _, rfl, .inr ⟨d, rfl⟩⟩

lemma readValue_number {rest : List Char} (h : Ends rest) (fuel : Nat) (n : Numeral) :
    readValue (fuel + 1) (n.chars ++ rest) = some (number n, rest) := by
  obtain ⟨c, cs, hcs, hc⟩ := numeral_head n
  obtain ⟨hblank, hmark⟩ := hc.not_mark
  have hread := readNumeral_chars h n
  rw [hcs, List.cons_append] at hread ⊢
  rw [readValue, skipBlanks_cons hblank]
  split
  case h_7 => rw [hread]; rfl
  all_goals
    next heq =>
      obtain rfl := (List.cons.inj heq).1
      exact absurd hmark (by decide)

namespace Layout

variable (w : Layout)

lemma chars_head {j : Json} (hj : Legible j) (depth : Nat) :
    ∃ c cs, w.chars depth j = c :: cs ∧ isBlank c = false ∧ c ≠ ']' ∧ c ≠ '\x7d' := by
  cases hj with
  | null => exact ⟨_, _, rfl, by decide⟩
  | bool b => cases b <;> exact ⟨_, _, rfl, by decide⟩
  | number n =>
    obtain ⟨c, cs, hcs, hc⟩ := numeral_head n
    obtain ⟨hblank, hmark⟩ := hc.not_mark
    refine ⟨c, cs, hcs, hblank, ?_, ?_⟩ <;> rintro rfl <;> exact hmark (by decide)
  | text s => exact ⟨_, _, rfl, by decide⟩
  | @array js _ => cases js <;> exact ⟨_, _, by rw [chars], by decide⟩
  | @object ms _ _ => cases ms <;> exact ⟨_, _, by rw [chars], by decide⟩

lemma items_cons_cons (depth : Nat) (j j' : Json) (js : List Json) :
    w.items depth (j :: j' :: js) =
      w.gap depth ++ (w.chars depth j ++ ',' :: w.items depth (j' :: js)) := by
  rw [items]
  nofun

lemma members_cons_cons (depth : Nat) (k : Option String) (j : Json)
    (m : Option String × Json) (ms : List (Option String × Json)) :
    w.members depth ((k, j) :: m :: ms) =
      w.gap depth ++ (quoted? k ++ ':' :: (w.space ++
        (w.chars depth j ++ ',' :: w.members depth (m :: ms)))) := by
  rw [members]
  nofun

lemma items_cons (depth : Nat) (j : Json) (js : List Json) :
    ∃ cs, w.items depth (j :: js) = w.gap depth ++ (w.chars depth j ++ cs) := by
  cases js with
  | nil => exact ⟨[], by rw [items, List.append_nil]⟩
  | cons j' js => exact ⟨_, w.items_cons_cons depth j j' js⟩

lemma members_cons (depth : Nat) (k : Option String) (j : Json)
    (ms : List (Option String × Json)) :
    ∃ cs, w.members depth ((k, j) :: ms) = w.gap depth ++ '"' :: cs := by
  cases ms with
  | nil => exact ⟨_, by rw [members]; rfl⟩
  | cons m ms => exact ⟨_, w.members_cons_cons depth k j m ms⟩

lemma head_items {depth : Nat} {j : Json} (hj : Legible j) (js : List Json) (rest : List Char) :
    (skipBlanks (w.items depth (j :: js) ++ rest)).head? ≠ some ']' := by
  obtain ⟨tail, htail⟩ := w.items_cons depth j js
  obtain ⟨c, cs, hcs, hblank, hc, -⟩ := w.chars_head hj depth
  rw [htail, List.append_assoc, skipBlanks_append (w.blank_gap depth), hcs, List.append_assoc,
    List.cons_append, skipBlanks_cons hblank]
  simpa using hc

lemma head_members (depth : Nat) (m : Option String × Json) (ms : List (Option String × Json))
    (rest : List Char) :
    (skipBlanks (w.members depth (m :: ms) ++ rest)).head? ≠ some '\x7d' := by
  obtain ⟨tail, htail⟩ := w.members_cons depth m.1 m.2 ms
  rw [htail, List.append_assoc, skipBlanks_append (w.blank_gap depth), List.cons_append,
    skipBlanks_cons (by decide)]
  simp

mutual
/-- A value reads back with any text behind it that does not go on with it. Two steps for each
character are enough. -/
theorem readValue_chars (depth fuel : Nat) {rest : List Char} (hrest : Ends rest) :
    (j : Json) → Legible j → 2 * (w.chars depth j).length ≤ fuel →
      readValue fuel (w.chars depth j ++ rest) = some (j, rest)
  | j, hj, hfuel => by
    obtain ⟨c, cs, hcs, -⟩ := w.chars_head hj depth
    obtain ⟨fuel, rfl⟩ : ∃ n, fuel = n + 1 := ⟨fuel - 1, by rw [hcs] at hfuel; simp at hfuel; omega⟩
    match j, hj with
    | null, _ => rfl
    | bool true, _ => rfl
    | bool false, _ => rfl
    | number n, _ => exact readValue_number hrest fuel n
    | text (some s), _ => exact readValue_text fuel s rest
    | array [], _ => rfl
    | object [], _ => rfl
    | array (j :: js), .array hjs =>
      rw [chars] at hfuel ⊢
      simp only [List.cons_append, List.append_assoc, List.nil_append]
      rw [readValue_array (w.head_items (hjs j List.mem_cons_self) js _),
        readItems_items (depth + 1) fuel (w.blank_gap depth) rest j js hjs]
      · rfl
      · simp only [List.length_cons, List.length_append] at hfuel
        omega
    | object (m :: ms), .object hnames hms =>
      rw [chars] at hfuel ⊢
      simp only [List.cons_append, List.append_assoc, List.nil_append]
      rw [readValue_object (w.head_members _ m ms _),
        readMembers_members (depth + 1) fuel (w.blank_gap depth) rest m ms hnames hms]
      · rfl
      · simp only [List.length_cons, List.length_append] at hfuel
        omega
theorem readItems_items (depth fuel : Nat) {blanks : List Char} (hblanks : Blank blanks)
    (rest : List Char) :
    (j : Json) → (js : List Json) → (∀ i ∈ j :: js, Legible i) →
      2 * (w.items depth (j :: js)).length + 1 ≤ fuel →
      readItems fuel (w.items depth (j :: js) ++ (blanks ++ ']' :: rest)) = some (j :: js, rest)
  | j, [], hjs, hfuel => by
    obtain ⟨fuel, rfl⟩ : ∃ n, fuel = n + 1 := ⟨fuel - 1, by omega⟩
    rw [items] at hfuel ⊢
    simp only [List.length_append] at hfuel
    have hends : Ends (blanks ++ ']' :: rest) := ends_blank hblanks (by decide) rest
    have hvalue := readValue_chars depth fuel hends j (hjs j List.mem_cons_self) (by omega)
    rw [readItems, List.append_assoc, readValue_blank (w.blank_gap depth), hvalue]
    simp [skipBlanks_append hblanks, skipBlanks_cons (show isBlank ']' = false by decide)]
  | j, j' :: js, hjs, hfuel => by
    obtain ⟨fuel, rfl⟩ : ∃ n, fuel = n + 1 := ⟨fuel - 1, by omega⟩
    rw [items_cons_cons] at hfuel ⊢
    simp only [List.length_append, List.length_cons] at hfuel
    obtain ⟨hj, hjs⟩ := List.forall_mem_cons.mp hjs
    have hends := ends_closer (show ',' ∈ closers by decide)
      (w.items depth (j' :: js) ++ (blanks ++ ']' :: rest))
    have hvalue := readValue_chars depth fuel hends j hj (by omega)
    have hitems := readItems_items depth fuel hblanks rest j' js hjs (by omega)
    rw [readItems, List.append_assoc, readValue_blank (w.blank_gap depth), List.append_assoc,
      List.cons_append, hvalue]
    simp [skipBlanks_cons (show isBlank ',' = false by decide), hitems]
theorem readMembers_members (depth fuel : Nat) {blanks : List Char} (hblanks : Blank blanks)
    (rest : List Char) :
    (m : Option String × Json) → (ms : List (Option String × Json)) →
      (∀ i ∈ m :: ms, i.1 ≠ none) → (∀ i ∈ m :: ms, Legible i.2) →
      2 * (w.members depth (m :: ms)).length + 1 ≤ fuel →
      readMembers fuel (w.members depth (m :: ms) ++ (blanks ++ '\x7d' :: rest)) =
        some (m :: ms, rest)
  | (none, j), ms, hnames, _, _ => absurd rfl (hnames _ List.mem_cons_self)
  | (some k, j), [], _, hms, hfuel => by
    obtain ⟨fuel, rfl⟩ : ∃ n, fuel = n + 1 := ⟨fuel - 1, by omega⟩
    rw [members] at hfuel ⊢
    simp only [List.length_append, List.length_cons] at hfuel
    have hends : Ends (blanks ++ '\x7d' :: rest) := ends_blank hblanks (by decide) rest
    have hvalue := readValue_chars depth fuel hends j (hms _ List.mem_cons_self) (by omega)
    rw [readMembers, List.append_assoc, List.append_assoc, List.cons_append,
      readName_quoted (w.blank_gap depth)]
    simp only [Option.bind_eq_bind, Option.bind_some]
    rw [List.append_assoc, readValue_blank w.blank_space, hvalue]
    simp [skipBlanks_append hblanks, skipBlanks_cons (show isBlank '\x7d' = false by decide)]
  | (some k, j), m :: ms, hnames, hms, hfuel => by
    obtain ⟨fuel, rfl⟩ : ∃ n, fuel = n + 1 := ⟨fuel - 1, by omega⟩
    rw [members_cons_cons] at hfuel ⊢
    simp only [List.length_append, List.length_cons] at hfuel
    obtain ⟨hj, hms⟩ := List.forall_mem_cons.mp hms
    obtain ⟨-, hnames⟩ := List.forall_mem_cons.mp hnames
    have hends := ends_closer (show ',' ∈ closers by decide)
      (w.members depth (m :: ms) ++ (blanks ++ '\x7d' :: rest))
    have hvalue := readValue_chars depth fuel hends j hj (by omega)
    have hmembers := readMembers_members depth fuel hblanks rest m ms hnames hms (by omega)
    rw [readMembers, List.append_assoc, List.append_assoc, List.cons_append,
      readName_quoted (w.blank_gap depth)]
    simp only [Option.bind_eq_bind, Option.bind_some]
    rw [List.append_assoc, readValue_blank w.blank_space, List.append_assoc, List.cons_append,
      hvalue]
    simp [skipBlanks_cons (show isBlank ',' = false by decide), hmembers]
end

theorem parse?_chars {j : Json} (hj : Legible j) (depth : Nat) :
    parse? (String.ofList (w.chars depth j)) = some j := by
  have hread := w.readValue_chars depth (2 * (w.chars depth j).length + 2) ends_nil j hj (by omega)
  rw [List.append_nil] at hread
  simp [parse?, hread, skipBlanks]

end Layout

/-- A value reads back from its text on one line. -/
theorem parse?_compact {j : Json} (hj : Legible j) : parse? j.compact = some j := by
  rw [compact, ← Layout.chars_oneLine 0]
  exact Layout.oneLine.parse?_chars hj 0

/-- A value reads back from its text on indented lines. -/
theorem parse?_pretty {j : Json} (hj : Legible j) : parse? j.pretty = some j := by
  rw [pretty, ← Layout.chars_indented 0]
  exact Layout.indented.parse?_chars hj 0

end Whereabouts.Json
