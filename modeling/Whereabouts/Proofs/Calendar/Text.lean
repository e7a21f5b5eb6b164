import Mathlib
import Whereabouts.Proofs.Calendar
import Whereabouts.Proofs.Json.Token

/-! The text of a fix time has one reading, as a second of the calendar, and that is the second in
which the time lies. -/
namespace Whereabouts

def paddedDigits (width n : Nat) : List Digit :=
  List.replicate (width - (digits n).length) Digit.zero ++ digits n

lemma spelled_zeros (k : Nat) (ds : List Digit) :
    spelled (List.replicate k Digit.zero ++ ds) = spelled ds := by
  induction k with
  | zero => rfl
  | succ k ih => exact ih

lemma toList_padded (width n : Nat) :
    (padded width n).toList = (paddedDigits width n).map digitChar :=
  String.toList_ofList

@[simp] lemma spelled_paddedDigits (width n : Nat) : spelled (paddedDigits width n) = n := by
  rw [paddedDigits, spelled_zeros, spelled_digits]

lemma length_digits_le {n : Nat} {width : Nat} (hw : width ≠ 0) (h : n < 10 ^ width) :
    (digits n).length ≤ width := by
  induction width generalizing n with
  | zero => exact absurd rfl hw
  | succ w ih =>
    rw [digits]
    split
    case isTrue => exact Nat.succ_le_succ (Nat.zero_le w)
    case isFalse hten =>
      have hlt : n / 10 < 10 ^ w := Nat.div_lt_of_lt_mul (by rwa [← Nat.pow_succ'])
      have hw' : w ≠ 0 := by
        rintro rfl
        exact hten h
      rw [List.length_append]
      exact Nat.succ_le_succ (ih hw' hlt)

lemma length_paddedDigits (width n : Nat) :
    (paddedDigits width n).length = max width (digits n).length := by
  rw [paddedDigits, List.length_append, List.length_replicate]
  omega

lemma length_paddedDigits_two {n : Nat} (h : n < 100) : (paddedDigits 2 n).length = 2 := by
  rw [length_paddedDigits]
  exact max_eq_left (length_digits_le (by decide) h)

/-- Nothing is put before digits that are more than are asked for. -/
lemma head_paddedDigits_ne_zero {width n : Nat} (hw : width ≠ 0)
    (h : width < (paddedDigits width n).length) :
    (paddedDigits width n).head? ≠ some Digit.zero := by
  rw [length_paddedDigits] at h
  have hlong : width < (digits n).length := by omega
  rw [paddedDigits, Nat.sub_eq_zero_of_le hlong.le]
  refine Json.head_digits_ne_zero ?_
  rintro rfl
  rw [Json.digits_zero] at hlong
  exact hw (Nat.lt_one_iff.mp hlong)

/-- The digits of the numbers in a text such as `2023-11-14T22:13:20Z`. -/
structure Spelling where
  year : List Digit
  month : List Digit
  day : List Digit
  hour : List Digit
  minute : List Digit
  second : List Digit
  deriving DecidableEq

namespace Spelling

/-- Two digits each, and four in the year, or more of which the first one is not zero. -/
structure WellFormed (f : Spelling) : Prop where
  year : f.year.length = 4 ∨ 4 < f.year.length ∧ f.year.head? ≠ some Digit.zero
  month : f.month.length = 2
  day : f.day.length = 2
  hour : f.hour.length = 2
  minute : f.minute.length = 2
  second : f.second.length = 2

/-- The stamp that is spelled. -/
def stamp (f : Spelling) : Stamp :=
  ⟨⟨spelled f.year, spelled f.month, spelled f.day⟩, spelled f.hour, spelled f.minute,
    spelled f.second⟩

/-- Digits and the sign behind them. -/
abbrev Part := List Digit × Char

def Part.chars (p : Part) : List Char := p.1.map digitChar ++ [p.2]

/-- Years after 9999 have a sign before them. -/
def parts (f : Spelling) : List Part :=
  (if 9999 < spelled f.year then [([], '+')] else []) ++
    [(f.year, '-'), (f.month, '-'), (f.day, 'T'), (f.hour, ':'), (f.minute, ':'), (f.second, 'Z')]

def chars (f : Spelling) : List Char := f.parts.flatMap Part.chars

example : (Spelling.mk [1, 2, 0, 2, 3] [1, 1] [1, 4] [2, 2] [1, 3] [2, 0]).chars =
    "+12023-11-14T22:13:20Z".toList := by decide

/-- What is written in parts is read in one way. -/
lemma parts_injective {ps qs : List Part} (hps : ∀ p ∈ ps, digit? p.2 = none)
    (hqs : ∀ q ∈ qs, digit? q.2 = none) (h : ps.flatMap Part.chars = qs.flatMap Part.chars) :
    ps = qs := by
  induction ps generalizing qs with
  | nil =>
    cases qs with
    | nil => rfl
    | cons q qs => simp [Part.chars] at h
  | cons p ps ih =>
    cases qs with
    | nil => simp [Part.chars] at h
    | cons q qs =>
      rw [List.forall_mem_cons] at hps hqs
      simp only [List.flatMap_cons, Part.chars, List.append_assoc, List.singleton_append] at h
      have hread := congrArg Json.takeDigits h
      rw [Json.takeDigits_map (Json.endsDigits_cons hps.1 _),
        Json.takeDigits_map (Json.endsDigits_cons hqs.1 _)] at hread
      simp only [Prod.mk.injEq, List.cons.injEq] at hread
      obtain ⟨hdigits, hsign, hrest⟩ := hread
      rw [ih hps.2 hqs.2 hrest, Prod.ext hdigits hsign]

lemma digit?_parts (f : Spelling) : ∀ p ∈ f.parts, digit? p.2 = none := by
  unfold parts
  split <;> simp <;> decide

theorem chars_injective {f g : Spelling} (h : f.chars = g.chars) : f = g := by
  have hparts := parts_injective f.digit?_parts g.digit?_parts h
  unfold parts at hparts
  cases f
  cases g
  split_ifs at hparts <;> simp_all

end Spelling

/-- The digits with which a stamp is written. -/
def Stamp.spelling (s : Stamp) : Spelling :=
  ⟨paddedDigits 4 s.date.year, paddedDigits 2 s.date.month, paddedDigits 2 s.date.day,
    paddedDigits 2 s.hour, paddedDigits 2 s.minute, paddedDigits 2 s.second⟩

lemma Stamp.chars_spelling (s : Stamp) :
    s.spelling.chars =
      (if 9999 < s.date.year then ['+'] else []) ++ (paddedDigits 4 s.date.year).map digitChar ++
        ['-'] ++ (paddedDigits 2 s.date.month).map digitChar ++
        ['-'] ++ (paddedDigits 2 s.date.day).map digitChar ++
        ['T'] ++ (paddedDigits 2 s.hour).map digitChar ++
        [':'] ++ (paddedDigits 2 s.minute).map digitChar ++
        [':'] ++ (paddedDigits 2 s.second).map digitChar ++ ['Z'] := by
  simp only [Spelling.chars, Spelling.parts, spelling, spelled_paddedDigits]
  split <;> simp [Spelling.Part.chars]

@[simp] lemma Stamp.stamp_spelling (s : Stamp) : s.spelling.stamp = s := by
  simp [Spelling.stamp, spelling]

lemma Stamp.InCalendar.wellFormed_spelling {s : Stamp} (h : s.InCalendar) :
    s.spelling.WellFormed where
  year := by
    have hfour : 4 ≤ s.spelling.year.length := by
      rw [spelling, length_paddedDigits]
      exact le_max_left _ _
    exact hfour.eq_or_lt.imp Eq.symm fun hlt =>
      ⟨hlt, head_paddedDigits_ne_zero (by decide) hlt⟩
  month := length_paddedDigits_two (h.date.month.2.trans_lt (by decide))
  day := length_paddedDigits_two
    ((h.date.day.2.trans (Calendar.daysInMonth_le _ _)).trans_lt (by decide))
  hour := length_paddedDigits_two (h.hour.trans (by decide))
  minute := length_paddedDigits_two (h.minute.trans (by decide))
  second := length_paddedDigits_two (h.second.trans (by decide))

namespace Timestamp

lemma iso?_eq_none_iff (t : Timestamp) : t.iso? = none ↔ t = never ∨ Calendar.limit ≤ t := by
  unfold iso?
  split_ifs with h <;> simp [h]

/-- A text is written of the second in which the time lies. -/
lemma toList_of_iso? {t : Timestamp} {text : String} (h : t.iso? = some text) :
    text.toList = (Stamp.ofSeconds (t / 1000)).spelling.chars := by
  have hshown : ¬ (t = never ∨ Calendar.limit ≤ t) := by
    rw [← iso?_eq_none_iff, h]
    exact Option.some_ne_none text
  rw [iso?, if_neg hshown] at h
  rw [← Option.some.inj h]
  simp only [String.toList_append, toList_padded, apply_ite String.toList, Stamp.chars_spelling]
  rfl

/-- There is one way to read the text, and it gives the only stamp of that second. -/
lemma exists_reading {t : Timestamp} {text : String} (htext : t.iso? = some text) :
    ∃ f : Spelling, f.WellFormed ∧ (∀ g : Spelling, text.toList = g.chars ↔ g = f) ∧
      f.stamp.InCalendar ∧ f.stamp.seconds = (t / 1000 : Nat) ∧
      ∀ s : Stamp, s.InCalendar → s.seconds = (t / 1000 : Nat) → s = f.stamp := by
  have hin := Stamp.inCalendar_ofSeconds (t / 1000)
  have hseconds := Stamp.seconds_ofSeconds (t / 1000)
  refine ⟨_, hin.wellFormed_spelling, fun g => ?_, ?_⟩
  · rw [toList_of_iso? htext]
    exact ⟨fun h => (Spelling.chars_injective h).symm, fun h => by rw [h]⟩
  · rw [Stamp.stamp_spelling]
    exact ⟨hin, hseconds, fun s hs h => hs.eq_of_seconds_eq hin (h.trans hseconds.symm)⟩

lemma iso?_eq_iff {t u : Timestamp} (ht : t.iso? ≠ none) (hu : u.iso? ≠ none) :
    t.iso? = u.iso? ↔ t / 1000 = u / 1000 := by
  obtain ⟨text, htext⟩ := Option.ne_none_iff_exists'.mp ht
  obtain ⟨text', htext'⟩ := Option.ne_none_iff_exists'.mp hu
  rw [htext, htext', Option.some.injEq, ← String.toList_inj, toList_of_iso? htext,
    toList_of_iso? htext']
  constructor
  · intro h
    have hstamp := congrArg Spelling.stamp (Spelling.chars_injective h)
    rw [Stamp.stamp_spelling, Stamp.stamp_spelling] at hstamp
    have hseconds := congrArg Stamp.seconds hstamp
    rwa [Stamp.seconds_ofSeconds, Stamp.seconds_ofSeconds, Int.natCast_inj] at hseconds
  · intro h
    rw [h]

/-- A fix time has no text exactly if there was no fix or it lies after the year 262142. Otherwise
its text has one reading, which is the only stamp in the calendar of the second in which the time
lies; so times have the same text exactly if they lie in the same second. -/
theorem text_reads_back (t : Timestamp) :
    (t.iso? = none ↔ t = 0 ∨ 8210266876800000 ≤ t) ∧
    (∀ s : Stamp, s.InCalendar → s.seconds = (t / 1000 : Nat) →
      (8210266876800000 ≤ t ↔ 262142 < s.date.year)) ∧
    (∀ text, t.iso? = some text → ∃ f : Spelling, f.WellFormed ∧
      (∀ g : Spelling, text.toList = g.chars ↔ g = f) ∧
      f.stamp.InCalendar ∧ f.stamp.seconds = (t / 1000 : Nat) ∧
      ∀ s : Stamp, s.InCalendar → s.seconds = (t / 1000 : Nat) → s = f.stamp) ∧
    ∀ u : Timestamp, t.iso? ≠ none → u.iso? ≠ none →
      (t.iso? = u.iso? ↔ t / 1000 = u / 1000) :=
  ⟨iso?_eq_none_iff t, fun _ hs => hs.limit_le_iff, fun _ => exists_reading, fun _ => iso?_eq_iff⟩

/-- A fix time, the last one in the same second, and the first one in the next second. -/
theorem text_reads_back_in_second :
    let t : Timestamp := 1700000000123
    let f : Spelling := ⟨[2, 0, 2, 3], [1, 1], [1, 4], [2, 2], [1, 3], [2, 0]⟩
    t.iso? = some "2023-11-14T22:13:20Z" ∧ f.WellFormed ∧ f.stamp.InCalendar ∧
      f.stamp.seconds = 1700000000 ∧ t.iso? = iso? 1700000000999 ∧
      t.iso? ≠ iso? 1700000001000 := by
  intro t f
  have htext : iso? 1700000000123 = some "2023-11-14T22:13:20Z" := by cbv
  have hchars : "2023-11-14T22:13:20Z".toList = f.chars := by cbv
  have hshown (u : Timestamp) (hu : ¬ (u = 0 ∨ 8210266876800000 ≤ u)) : u.iso? ≠ none :=
    (text_reads_back u).1.not.mpr hu
  obtain ⟨-, -, hread, hsame⟩ := text_reads_back 1700000000123
  obtain ⟨g, hg, honly, hstamp, hseconds, -⟩ := hread _ htext
  obtain rfl : f = g := (honly f).mp hchars
  have hlast := hsame 1700000000999 (hshown _ (by decide)) (hshown _ (by decide))
  have hnext := hsame 1700000001000 (hshown _ (by decide)) (hshown _ (by decide))
  exact ⟨htext, hg, hstamp, hseconds, hlast.mpr rfl, hnext.not.mpr (by decide)⟩

end Timestamp
end Whereabouts
