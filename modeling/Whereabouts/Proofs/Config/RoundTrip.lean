import Whereabouts.Config.Vehicle
import Whereabouts.Proofs.Json.Record

/-! Configurations, locations and routes read back from the texts that are written for them. -/
namespace Whereabouts

open Arith Json

variable {R : Type}

def Geo.Point.numbers (p : Geo.Point R) : List R := [p.lat, p.lng]

/-- All numbers of a location, whether it supplies them or not. -/
def Location.stored (l : Location R) : List R :=
  l.position.numbers ++ [l.speed, l.bearing, l.altitude, l.accuracy]

def Route.Item.numbers (i : Route.Item R) : List R :=
  i.maxSpeed.toList ++ i.points.flatMap Geo.Point.numbers

def Route.numbers (r : Route R) : List R := r.items.flatMap Item.numbers

def Profile.numbers (p : Profile R) : List R := p.rows.map fun row => row.2.speed

def Fusion.Settings.numbers (s : Fusion.Settings R) : List R := s.changeEpsilon.toList

def Reckoning.Settings.numbers (s : Reckoning.Settings R) : List R :=
  s.fixedSpeed.toList ++ [s.accuracy, s.offroadSpeed]

def Demo.numbers (d : Demo R) : List R :=
  [d.speed, d.accuracy] ++ d.start.toList.flatMap Geo.Point.numbers

def VehicleConfig.numbers (c : VehicleConfig R) : List R :=
  c.fusion.numbers ++ c.profile.numbers ++ c.demo.toList.flatMap Demo.numbers

lemma Validity.stands (v : Validity) : Stands ofJson? v.toJson v :=
  stands_oneOf (by cases v <;> rfl)

lemma Preference.stands (p : Preference) : Stands ofJson? p.toJson p :=
  stands_oneOf (by cases p <;> rfl)

lemma LimitPolicy.stands (p : LimitPolicy) : Stands ofJson? p.toJson p :=
  stands_oneOf (by cases p <;> rfl)

lemma Route.ItemKind.stands (k : ItemKind) : Stands ofJson? k.toJson k :=
  stands_oneOf (by cases k <;> rfl)

lemma StreetType.ofName?_name (t : StreetType) : ofName? t.name = some t := by
  cases t <;> rfl

lemma StreetType.stands (t : StreetType) : Stands ofJson? t.toJson t :=
  stands_oneOf t.ofName?_name

lemma Presence.stands (p : Presence) : Stands ofJson? p.toJson p := by
  obtain ⟨hlegible, hread⟩ := stands_nat 8 p.bits.isLt
  refine ⟨hlegible, ?_⟩
  rw [toJson, ofJson?, hread]
  simp

namespace Profile

/-- One setting more in a table; a later one for the same class counts. -/
def put (table : SpeedTable R) (row : StreetType × RoadSpeed R) : SpeedTable R :=
  fun s => if s = row.1 then some row.2 else table s

lemma foldl_put {roads : SpeedTable R} {rows : List (StreetType × RoadSpeed R)}
    (h : ∀ row ∈ rows, roads row.1 = some row.2) (table : SpeedTable R) (s : StreetType) :
    rows.foldl put table s = if s ∈ rows.map Prod.fst then roads s else table s := by
  induction rows generalizing table with
  | nil => simp
  | cons row rows ih =>
    obtain ⟨hrow, hrows⟩ := List.forall_mem_cons.mp h
    rw [List.foldl_cons, ih hrows, put]
    by_cases hs : s = row.1
    · simp [hs, hrow]
    · simp only [List.map_cons, List.mem_cons, hs, if_false, false_or]

/-- The rows of a table put into an empty one give the table. -/
lemma foldl_put_rows (p : Profile R) : p.rows.foldl put (fun _ => none) = p.roads := by
  funext s
  rw [foldl_put fun row hrow => (p.mem_rows row.1 row.2).mp hrow]
  split_ifs with hs
  · rfl
  · cases hr : p.roads s with
    | none => rfl
    | some r => exact absurd (List.mem_map_of_mem ((p.mem_rows s r).mpr hr)) hs

end Profile

/-- The counters and codes of a location are machine integers. -/
structure Location.Fits (l : Location R) : Prop where
  satsInView_lt : l.satsInView < Nat.pow 2 32
  satsUsed_lt : l.satsUsed < Nat.pow 2 32
  fixType_mem : -Nat.pow 2 31 ≤ l.fixType ∧ l.fixType ≤ Nat.pow 2 31 - 1
  fixTime_lt : l.fixTime < Nat.pow 2 64

section

variable [Written R]

open Written

theorem Geo.Point.stands {p : Geo.Point R} (h : ∀ x ∈ p.numbers, ReadsBack x) :
    Stands ofJson? p.toJson p := by
  simp only [numbers, List.forall_mem_cons] at h
  have hlat := stands_num h.1
  have hlng := stands_num h.2.1
  refine stands_obj (by simp) (by simp [hlat.legible, hlng.legible]) ?_
  simp [hlat.read_eq, hlng.read_eq]

theorem Location.stands {l : Location R} (hfits : l.Fits) (h : ∀ x ∈ l.stored, ReadsBack x) :
    Stands ofJson? l.toJson l := by
  simp only [stored, List.forall_mem_append, List.forall_mem_cons] at h
  obtain ⟨hpoint, hspeed, hbearing, haltitude, haccuracy, -⟩ := h
  have hposition := Geo.Point.stands hpoint
  have hspeed := stands_num hspeed
  have hbearing := stands_num hbearing
  have haltitude := stands_num haltitude
  have haccuracy := stands_num haccuracy
  have hinView := stands_nat 32 hfits.satsInView_lt
  have hused := stands_nat 32 hfits.satsUsed_lt
  have hfixType := stands_int 32 hfits.fixType_mem
  have hfixTime := stands_nat 64 hfits.fixTime_lt
  have hpresence := l.presence.stands
  have hvalidity := l.validity.stands
  have hpreference := l.preference.stands
  refine stands_obj (by simp) ?_ ?_
  · simp [hposition.legible, hspeed.legible, hbearing.legible, haltitude.legible,
      haccuracy.legible, hinView.legible, hused.legible, hfixType.legible, hfixTime.legible,
      hpresence.legible, hvalidity.legible, hpreference.legible]
  · -- the steps of the reader are left to `rfl`: `simp` would look twice at what follows each one
    simp only [Fields.required?_cons, String.reduceEq, reduceIte, hposition.read_eq, hspeed.read_eq,
      hbearing.read_eq, haltitude.read_eq, haccuracy.read_eq, hinView.read_eq, hused.read_eq,
      hfixType.read_eq, hfixTime.read_eq, hpresence.read_eq, hvalidity.read_eq, hpreference.read_eq]
    rfl

theorem Route.Item.stands {i : Item R} (h : ∀ x ∈ i.numbers, ReadsBack x) :
    Stands ofJson? i.toJson i := by
  simp only [numbers, List.forall_mem_append, Option.mem_toList, List.forall_mem_flatMap] at h
  have hkind := i.kind.stands
  have hstreet := stands_orNull (show StreetType.ofJson? null = none from rfl)
    fun t (_ : t ∈ i.streetType) => t.stands
  have hmaxSpeed := stands_orNull (show num? null = (none : Option R) from rfl)
    fun x hx => stands_num (h.1 x hx)
  have hpoints : ∀ p ∈ i.points, Stands Geo.Point.ofJson? p.toJson p :=
    fun p hp => Geo.Point.stands (h.2 p hp)
  refine stands_obj (by simp) ?_ ?_
  · simp [hkind.legible, hstreet.legible, hmaxSpeed.legible, legible_array hpoints]
  · simp [hkind.read_eq, hstreet.read_eq, hmaxSpeed.read_eq, array?, mapM_read hpoints]

theorem Route.stands {r : Route R} (h : ∀ x ∈ r.numbers, ReadsBack x) :
    Stands ofJson? r.toJson r := by
  simp only [numbers, List.forall_mem_flatMap] at h
  have hitems : ∀ i ∈ r.items, Stands Item.ofJson? i.toJson i := fun i hi => Item.stands (h i hi)
  refine stands_obj (by simp) (by simp [legible_array hitems]) ?_
  simp [array?, mapM_read hitems]

theorem RoadSpeed.stands {r : RoadSpeed R} (h : ReadsBack r.speed) :
    Stands ofJson? r.toJson r := by
  have hspeed := stands_num h
  have hpolicy := r.policy.stands
  refine stands_obj (by simp) (by simp [hspeed.legible, hpolicy.legible]) ?_
  simp [hspeed.read_eq, hpolicy.read_eq]

namespace Profile

lemma roadsOfJson?_rows {rows : List (StreetType × RoadSpeed R)}
    (h : ∀ row ∈ rows, Stands RoadSpeed.ofJson? row.2.toJson row.2) :
    roadsOfJson? (obj (rows.map fun (t, r) => (t.name, r.toJson))) =
      some (rows.foldl put fun _ => none) := by
  rw [obj, roadsOfJson?]
  generalize (fun _ => none : SpeedTable R) = table
  induction rows generalizing table with
  | nil => rfl
  | cons row rows ih =>
    obtain ⟨hrow, hrows⟩ := List.forall_mem_cons.mp h
    rw [List.foldl_cons, ← ih hrows (put table row)]
    simp only [List.map_cons, List.foldlM_cons, StreetType.ofName?_name, hrow.read_eq,
      Option.bind_eq_bind, Option.bind_some]
    rfl

theorem stands {p : Profile R} (h : ∀ x ∈ p.numbers, ReadsBack x) :
    Stands ofJson? p.toJson p := by
  have hname := stands_str p.name
  have hrows : ∀ row ∈ p.rows, Stands RoadSpeed.ofJson? row.2.toJson row.2 :=
    fun row hrow => RoadSpeed.stands (h _ (List.mem_map_of_mem hrow))
  have hroads : Legible (obj (p.rows.map fun (t, r) => (t.name, r.toJson))) :=
    legible_obj (List.forall_mem_map.mpr fun row hrow => (hrows row hrow).legible)
  refine stands_obj (by simp) (by simp [hname.legible, hroads]) ?_
  simp [hname.read_eq, roadsOfJson?_rows hrows, foldl_put_rows]

end Profile

theorem Fusion.Settings.stands {s : Fusion.Settings R} (h : ∀ x ∈ s.numbers, ReadsBack x) :
    Stands ofJson? s.toJson s := by
  have hmotion := stands_bool s.notifyMotion
  have hepsilon := stands_orNull (show num? null = (none : Option R) from rfl)
    fun x hx => stands_num (h x (Option.mem_toList.mpr hx))
  refine stands_obj (by simp) (by simp [hmotion.legible, hepsilon.legible]) ?_
  simp [hmotion.read_eq, hepsilon.read_eq]

variable [Arith R]

theorem Reckoning.Settings.stands {s : Reckoning.Settings R} (h : ∀ x ∈ s.numbers, ReadsBack x) :
    Stands ofJson? s.toJson s := by
  simp only [numbers, List.forall_mem_append, Option.mem_toList, List.forall_mem_cons] at h
  obtain ⟨hfixed, haccuracy, hoffroad, -⟩ := h
  have hfixed := stands_orNull (show num? null = (none : Option R) from rfl)
    fun x hx => stands_num (hfixed x hx)
  have haccuracy := stands_num haccuracy
  have hoffroad := stands_num hoffroad
  refine stands_obj (by simp) (by simp [hfixed.legible, haccuracy.legible, hoffroad.legible]) ?_
  simp [hfixed.read_eq, haccuracy.read_eq, hoffroad.read_eq]

theorem Demo.stands {d : Demo R} (h : ∀ x ∈ d.numbers, ReadsBack x) :
    Stands ofJson? d.toJson d := by
  simp only [numbers, List.forall_mem_append, List.forall_mem_flatMap, Option.mem_toList,
    List.forall_mem_cons] at h
  obtain ⟨⟨hspeed, haccuracy, -⟩, hstart⟩ := h
  have hspeed := stands_num hspeed
  have haccuracy := stands_num haccuracy
  have hstart := stands_orNull
    (show Geo.Point.ofJson? null = (none : Option (Geo.Point R)) from rfl)
    fun p hp => Geo.Point.stands (hstart p hp)
  refine stands_obj (by simp) (by simp [hspeed.legible, haccuracy.legible, hstart.legible]) ?_
  simp [hspeed.read_eq, haccuracy.read_eq, hstart.read_eq]

theorem VehicleConfig.stands {c : VehicleConfig R} (hinterval : c.interval < Nat.pow 2 64)
    (hcapacity : c.channelCapacity < Nat.pow 2 64) (h : ∀ x ∈ c.numbers, ReadsBack x) :
    Stands ofJson? c.toJson c := by
  simp only [numbers, List.forall_mem_append, List.forall_mem_flatMap, Option.mem_toList] at h
  obtain ⟨⟨hfusion, hprofile⟩, hdemo⟩ := h
  have hname := stands_str c.name
  have hinterval := stands_nat 64 hinterval
  have hcapacity := stands_nat 64 hcapacity
  have hfusion := Fusion.Settings.stands hfusion
  have hprofile := Profile.stands hprofile
  have hdemo := stands_orNull (show Demo.ofJson? null = (none : Option (Demo R)) from rfl)
    fun d hd => Demo.stands (hdemo d hd)
  refine stands_obj (by simp) ?_ ?_
  · simp [hname.legible, hinterval.legible, hcapacity.legible, hfusion.legible, hprofile.legible,
      hdemo.legible]
  · simp [hname.read_eq, hinterval.read_eq, hcapacity.read_eq, hfusion.read_eq,
      hprofile.read_eq, hdemo.read_eq]

end

section

variable [Arith R]

lemma Geo.Point.isFinite_of_isValid {p : Geo.Point R} (h : p.isValid = true) :
    ∀ x ∈ p.numbers, isFinite x = true := by
  simp only [isValid, Bool.and_eq_true] at h
  simpa [numbers] using h.1.1

lemma Fusion.Settings.isFinite_of_validate {s : Fusion.Settings R} (h : s.validate = .ok ()) :
    ∀ x ∈ s.numbers, isFinite x = true := by
  rw [validate, ConfigFault.require_eq_ok_iff] at h
  intro x hx
  rw [numbers, Option.mem_toList] at hx
  rw [Option.mem_def.mp hx] at h
  exact isFinite_of_isNonneg h

lemma Demo.isFinite_of_validate {d : Demo R} (h : d.validate = .ok ()) :
    ∀ x ∈ d.numbers, isFinite x = true := by
  obtain ⟨hspeed, hstart, hreckoning⟩ := d.validate_eq_ok_iff.mp h
  have haccuracy : isPositive d.accuracy = true :=
    (d.reckoning.validate_eq_ok_iff.mp hreckoning).2.1
  simp only [numbers, List.forall_mem_append, List.forall_mem_cons, List.forall_mem_flatMap,
    Option.mem_toList]
  refine ⟨⟨isFinite_of_isNonneg hspeed, isFinite_of_isPositive haccuracy, List.forall_mem_nil _⟩,
    fun p hp => ?_⟩
  rw [Option.mem_def.mp hp] at hstart
  exact p.isFinite_of_isValid hstart

/-- What a configuration is checked for leaves no number in it that cannot be written. -/
theorem VehicleConfig.isFinite_of_validate {c : VehicleConfig R} (h : c.validate = .ok ()) :
    ∀ x ∈ c.numbers, isFinite x = true := by
  obtain ⟨-, -, hfusion, hroads, hdemo⟩ := c.validate_eq_ok_iff.mp h
  simp only [numbers, List.forall_mem_append, List.forall_mem_flatMap, Option.mem_toList]
  refine ⟨⟨Fusion.Settings.isFinite_of_validate hfusion, fun x hx => ?_⟩, fun d hd => ?_⟩
  · obtain ⟨row, hrow, rfl⟩ := List.mem_map.mp hx
    exact isFinite_of_isNonneg (List.all_eq_true.mp hroads row hrow)
  · exact Demo.isFinite_of_validate (hdemo d hd)

variable [Written R]

open Written

/-- The finite ones among some numbers are printed as texts that read back. -/
def Written.Faithful (xs : List R) : Prop := ∀ x ∈ xs, isFinite x = true → ReadsBack x

theorem VehicleConfig.parse_text {c : VehicleConfig R} (hinterval : c.interval < Nat.pow 2 64)
    (hcapacity : c.channelCapacity < Nat.pow 2 64) (hprinted : Faithful c.numbers)
    (h : c.validate = .ok ()) : parse c.text = .ok c := by
  have hstands := stands hinterval hcapacity fun x hx => hprinted x hx (isFinite_of_validate h x hx)
  rw [parse, text, hstands.pretty]
  simp only [h]
  rfl

/-- Every valid configuration reads back from its text, and so do locations, routes, profiles and
settings whose numbers are all finite. All that is asked of the printer of numbers is that the
finite ones among them read back. -/
theorem texts_read_back :
    (∀ c : VehicleConfig R, c.interval < Nat.pow 2 64 → c.channelCapacity < Nat.pow 2 64 →
      Faithful c.numbers → c.validate = .ok () → VehicleConfig.parse c.text = .ok c) ∧
    (∀ l : Location R, l.Fits → Faithful l.stored → (∀ x ∈ l.stored, isFinite x = true) →
      (parse? l.toJson.compact).bind Location.ofJson? = some l) ∧
    (∀ r : Route R, Faithful r.numbers → (∀ x ∈ r.numbers, isFinite x = true) →
      (parse? r.toJson.compact).bind Route.ofJson? = some r) ∧
    (∀ p : Profile R, Faithful p.numbers → (∀ x ∈ p.numbers, isFinite x = true) →
      (parse? p.toJson.compact).bind Profile.ofJson? = some p) ∧
    (∀ s : Fusion.Settings R, Faithful s.numbers → (∀ x ∈ s.numbers, isFinite x = true) →
      (parse? s.toJson.compact).bind Fusion.Settings.ofJson? = some s) ∧
    (∀ s : Reckoning.Settings R, Faithful s.numbers → (∀ x ∈ s.numbers, isFinite x = true) →
      (parse? s.toJson.compact).bind Reckoning.Settings.ofJson? = some s) ∧
    ∀ d : Demo R, Faithful d.numbers → (∀ x ∈ d.numbers, isFinite x = true) →
      (parse? d.toJson.compact).bind Demo.ofJson? = some d := by
  have hreads {xs : List R} (hprinted : Faithful xs) (hfinite : ∀ x ∈ xs, isFinite x = true) :
      ∀ x ∈ xs, ReadsBack x := fun x hx => hprinted x hx (hfinite x hx)
  refine ⟨fun c => VehicleConfig.parse_text, fun l hfits hp hf => ?_, fun r hp hf => ?_,
    fun p hp hf => ?_, fun s hp hf => ?_, fun s hp hf => ?_, fun d hp hf => ?_⟩
  · exact (Location.stands hfits (hreads hp hf)).compact
  · exact (Route.stands (hreads hp hf)).compact
  · exact (Profile.stands (hreads hp hf)).compact
  · exact (Fusion.Settings.stands (hreads hp hf)).compact
  · exact (Reckoning.Settings.stands (hreads hp hf)).compact
  · exact (Demo.stands (hreads hp hf)).compact

end

/-- A configuration with a quote and a line break in its name. -/
theorem texts_read_back_kiosk :
    let c : VehicleConfig Float :=
      { name := "Kiosk \"7\"\n"
        interval := 500
        channelCapacity := 8
        fusion := { changeEpsilon := some 0.5 }
        profile := (Profile.new "walker").withRoad .street0 4.0
        demo := none }
    c.validate = .ok () ∧ VehicleConfig.parse c.text = .ok c := by
  intro c
  have hnumbers : c.numbers = [0.5, 4.0] := rfl
  have hhalf : Written.ReadsBack (0.5 : Float) :=
    ⟨⟨false, 0, [5], none⟩, by decide +kernel, by decide +kernel⟩
  have hfour : Written.ReadsBack (4.0 : Float) :=
    ⟨⟨false, 4, [0], none⟩, by decide +kernel, by decide +kernel⟩
  have hprinted : Written.Faithful c.numbers := by
    rw [hnumbers]
    exact List.forall_mem_cons.mpr ⟨fun _ => hhalf, List.forall_mem_singleton.mpr fun _ => hfour⟩
  have hvalid : c.validate = .ok () := by decide
  exact ⟨hvalid, texts_read_back.1 c (by decide) (by decide) hprinted hvalid⟩

end Whereabouts
