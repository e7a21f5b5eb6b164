import Whereabouts.Proofs.Config.RoundTrip
import Whereabouts.Proofs.Json.Members

/-! Configuration texts are read member by member: in any order, past unknown members, and with the
default for each one that is missing. -/
namespace Whereabouts

open Json

variable {R : Type} [Written R]

lemma unordered_oneOf {α : Type} (all : List α) (name : α → String) :
    Unordered (oneOf? all name) :=
  Unordered.choice.bind

lemma unordered_num : Unordered (num? (R := R)) :=
  Unordered.of_plain (fun _ => rfl) fun _ => rfl

lemma unordered_string : Unordered string? :=
  Unordered.of_plain (fun _ => rfl) fun _ => rfl

lemma unordered_bool : Unordered bool? :=
  Unordered.of_plain (fun _ => rfl) fun _ => rfl

lemma unordered_unsigned (width : Nat) : Unordered (unsigned? width) :=
  Unordered.of_plain (fun _ => rfl) fun _ => rfl

lemma Geo.Point.unordered : Unordered (ofJson? (R := R)) := by
  refine Unordered.record fun {f f' p} h hp => ?_
  simp only [Option.bind_eq_bind, Option.bind_eq_some_iff] at hp ⊢
  obtain ⟨lat, hlat, lng, hlng, hp⟩ := hp
  exact ⟨lat, h.required? unordered_num hlat, lng, h.required? unordered_num hlng, hp⟩

lemma RoadSpeed.unordered : Unordered (ofJson? (R := R)) := by
  refine Unordered.record fun {f f' r} h hr => ?_
  simp only [Option.bind_eq_bind, Option.bind_eq_some_iff] at hr ⊢
  obtain ⟨speed, hspeed, policy, hpolicy, hr⟩ := hr
  exact ⟨speed, h.required? unordered_num hspeed, policy,
    h.optional? (unordered_oneOf _ _) hpolicy, hr⟩

namespace Profile

/-- The class and the speed that a member of a table gives. -/
def row? (m : Option String × Json) : Option (StreetType × RoadSpeed R) :=
  (m.1.bind StreetType.ofName?).bind fun t => (RoadSpeed.ofJson? m.2).map fun r => (t, r)

lemma row?_eq_some_iff {m : Option String × Json} {row : StreetType × RoadSpeed R} :
    row? m = some row ↔ m.1.bind StreetType.ofName? = some row.1 ∧
      RoadSpeed.ofJson? m.2 = some row.2 := by
  obtain ⟨t, r⟩ := row
  simp [row?, Option.bind_eq_some_iff]

/-- A table is read row by row, and then put together. -/
lemma roadsOfJson?_object (ms : List (Option String × Json)) :
    roadsOfJson? (R := R) (object ms) = (ms.mapM row?).map (·.foldl put fun _ => none) := by
  rw [roadsOfJson?]
  generalize (fun _ => none : SpeedTable R) = table
  induction ms generalizing table with
  | nil => rfl
  | cons m ms ih =>
    obtain ⟨k, v⟩ := m
    have hstep : (do
        let t ← StreetType.ofName? (← k)
        let r ← RoadSpeed.ofJson? v
        some fun s => if s = t then some r else table s) = (row? (k, v)).map (put table) := by
      cases k with
      | none => rfl
      | some n =>
        simp only [row?, Option.bind_eq_bind, Option.bind_some]
        cases StreetType.ofName? n with
        | none => rfl
        | some t => cases RoadSpeed.ofJson? (R := R) v <;> rfl
    rw [List.foldlM_cons, List.mapM_cons]
    refine (congrArg (· >>= _) hstep).trans ?_
    cases row? (R := R) (k, v) with
    | none => rfl
    | some row =>
      refine (ih (put table row)).trans ?_
      cases ms.mapM (row? (R := R)) <;> rfl

lemma name_of_row? {m : Option String × Json} {row : StreetType × RoadSpeed R}
    (h : row? m = some row) : m.1 = some row.1.name := by
  obtain ⟨k, hk, ht⟩ := Option.bind_eq_some_iff.mp (row?_eq_some_iff.mp h).1
  have hname : row.1.name = k := by simpa using List.find?_some ht
  rw [hk, hname]

omit [Written R] in
/-- Rows of different classes may be put into a table in any order. -/
lemma foldl_put_perm {rows rows' : List (StreetType × RoadSpeed R)} (h : rows.Perm rows')
    (hclasses : (rows.map Prod.fst).Nodup) (table : SpeedTable R) :
    rows.foldl put table = rows'.foldl put table := by
  refine h.foldl_eq' (fun x hx y hy table => ?_) table
  by_cases hxy : x.1 = y.1
  · rw [List.inj_on_of_nodup_map hclasses hx hy hxy]
  · funext s
    unfold put
    split_ifs with hsy hsx
    · exact absurd (hsx.symm.trans hsy) hxy
    all_goals rfl

/-- Members of different names give rows of different classes. -/
lemma nodup_classes {ms : List (Option String × Json)} (hnames : (ms.filterMap (·.1)).Nodup)
    (hall : ∀ m ∈ ms, (row? (R := R) m).isSome = true) :
    ((ms.filterMap (row? (R := R))).map Prod.fst).Nodup := by
  have hsame : (ms.filterMap (row? (R := R))).map (fun row => row.1.name) =
      ms.filterMap (·.1) := by
    rw [List.map_filterMap]
    refine List.filterMap_congr fun m hm => ?_
    obtain ⟨row, hrow⟩ := Option.isSome_iff_exists.mp (hall m hm)
    rw [hrow, name_of_row? hrow]
    rfl
  rw [← hsame] at hnames
  refine List.Nodup.of_map StreetType.name ?_
  rwa [List.map_map]

lemma unordered_roads : Unordered (roadsOfJson? (R := R)) := by
  intro j j' table h hj htable
  induction h with
  | refl => exact htable
  | item => cases htable
  | members hperm =>
    cases hj with
    | object hnames hvalues =>
      rw [roadsOfJson?_object, Option.map_eq_some_iff] at htable ⊢
      obtain ⟨rows, hrows, rfl⟩ := htable
      obtain ⟨hall, rfl⟩ := mapM_eq_some_iff.mp hrows
      refine ⟨_, mapM_eq_some_iff.mpr ⟨fun m hm => hall m (hperm.mem_iff.mpr hm), rfl⟩, ?_⟩
      exact (foldl_put_perm (hperm.filterMap _) (nodup_classes hnames hall) _).symm
  | @member v v' before after k hv _ =>
    cases hj with
    | object hnames hvalues =>
      have hvalue : v.Distinct := hvalues (k, v) (by simp)
      rw [roadsOfJson?_object, Option.map_eq_some_iff] at htable
      obtain ⟨rows, hrows, htable⟩ := htable
      obtain ⟨row, hrow⟩ := Option.isSome_iff_exists.mp
        ((mapM_eq_some_iff.mp hrows).1 (k, v) (by simp))
      obtain ⟨hclass, hspeed⟩ := row?_eq_some_iff.mp hrow
      have hrow' : row? (k, v') = some row :=
        row?_eq_some_iff.mpr ⟨hclass, RoadSpeed.unordered hv hvalue hspeed⟩
      rw [roadsOfJson?_object, Option.map_eq_some_iff]
      refine ⟨rows, ?_, htable⟩
      simpa only [List.mapM_append, List.mapM_cons, hrow, hrow'] using hrows
  | trans hjk _ ih ih' => exact ih' (hjk.distinct hj) (ih hj htable)

lemma unordered : Unordered (ofJson? (R := R)) := by
  refine Unordered.record fun {f f' p} h hp => ?_
  simp only [Option.bind_eq_bind, Option.bind_eq_some_iff] at hp ⊢
  obtain ⟨name, hname, roads, hroads, hp⟩ := hp
  exact ⟨name, h.required? unordered_string hname, roads, h.optional? unordered_roads hroads, hp⟩

end Profile

namespace Fusion.Settings

inductive Field where
  | notifyMotion
  | changeEpsilon
  deriving DecidableEq

def Field.key : Field → String
  | notifyMotion => "notify_motion"
  | changeEpsilon => "change_epsilon"

def fieldNames : List String := ["notify_motion", "change_epsilon"]

/-- A setting is read from its own member. -/
def Holds (f : Fields) (s : Settings R) : Field → Prop
  | .notifyMotion =>
    f.optional? "notify_motion" ({} : Settings R).notifyMotion bool? = some s.notifyMotion
  | .changeEpsilon =>
    f.optional? "change_epsilon" ({} : Settings R).changeEpsilon (nullable? num?) =
      some s.changeEpsilon

/-- The settings with one of them at its default. -/
def reset (s : Settings R) : Field → Settings R
  | .notifyMotion => { s with notifyMotion := ({} : Settings R).notifyMotion }
  | .changeEpsilon => { s with changeEpsilon := ({} : Settings R).changeEpsilon }

lemma ofJson?_eq_some_iff {j : Json} {s : Settings R} :
    ofJson? j = some s ↔ ∃ f, j.fields? fieldNames = some f ∧ ∀ a, s.Holds f a := by
  unfold ofJson?
  simp only [Option.bind_eq_bind, Option.bind_eq_some_iff]
  constructor
  · rintro ⟨f, hf, motion, hmotion, epsilon, hepsilon, hs⟩
    obtain rfl := Option.some.inj hs
    refine ⟨f, hf, fun a => ?_⟩
    cases a with
    | notifyMotion => exact hmotion
    | changeEpsilon => exact hepsilon
  · rintro ⟨f, hf, h⟩
    exact ⟨f, hf, _, h .notifyMotion, _, h .changeEpsilon, rfl⟩

def form : RecordForm Field (Settings R) where
  names := fieldNames
  read := ofJson?
  key := Field.key
  Holds f s := s.Holds f
  reset := reset
  key_mem a := by cases a <;> decide
  key_inj {a b} h := by cases a <;> cases b <;> first | rfl | exact absurd h (by decide)
  read_eq_some_iff := ofJson?_eq_some_iff
  holds_congr {f f' s a} h hs := by
    cases a <;> exact (Fields.optional?_congr h).trans hs
  holds_rearranged {f f' s a} h hs := by
    cases a with
    | notifyMotion => exact h.optional? unordered_bool hs
    | changeEpsilon => exact h.optional? unordered_num.nullable hs
  holds_reset_self {f s a} h := by cases a <;> exact Fields.optional?_of_none h
  holds_reset_of_ne {f s a b} hab h := by
    cases a <;> cases b <;> first | exact h | exact absurd rfl hab

end Fusion.Settings

namespace Demo

inductive Field where
  | speed
  | accuracy
  | start
  deriving DecidableEq

def Field.key : Field → String
  | speed => "speed_kmh"
  | accuracy => "accuracy_m"
  | start => "start"

def fieldNames : List String := ["speed_kmh", "accuracy_m", "start"]

variable [Arith R]

/-- A setting is read from its own member. -/
def Holds (f : Fields) (d : Demo R) : Field → Prop
  | .speed => f.optional? "speed_kmh" (default (R := R)).speed num? = some d.speed
  | .accuracy => f.optional? "accuracy_m" (default (R := R)).accuracy num? = some d.accuracy
  | .start =>
    f.optional? "start" (default (R := R)).start (nullable? Geo.Point.ofJson?) = some d.start

/-- The settings with one of them at its default. -/
def reset (d : Demo R) : Field → Demo R
  | .speed => { d with speed := default.speed }
  | .accuracy => { d with accuracy := default.accuracy }
  | .start => { d with start := default.start }

lemma ofJson?_eq_some_iff {j : Json} {d : Demo R} :
    ofJson? j = some d ↔ ∃ f, j.fields? fieldNames = some f ∧ ∀ a, d.Holds f a := by
  unfold ofJson?
  simp only [Option.bind_eq_bind, Option.bind_eq_some_iff]
  constructor
  · rintro ⟨f, hf, speed, hspeed, accuracy, haccuracy, start, hstart, hd⟩
    obtain rfl := Option.some.inj hd
    refine ⟨f, hf, fun a => ?_⟩
    cases a with
    | speed => exact hspeed
    | accuracy => exact haccuracy
    | start => exact hstart
  · rintro ⟨f, hf, h⟩
    exact ⟨f, hf, _, h .speed, _, h .accuracy, _, h .start, rfl⟩

def form : RecordForm Field (Demo R) where
  names := fieldNames
  read := ofJson?
  key := Field.key
  Holds f d := d.Holds f
  reset := reset
  key_mem a := by cases a <;> decide
  key_inj {a b} h := by cases a <;> cases b <;> first | rfl | exact absurd h (by decide)
  read_eq_some_iff := ofJson?_eq_some_iff
  holds_congr {f f' d a} h hd := by cases a <;> exact (Fields.optional?_congr h).trans hd
  holds_rearranged {f f' d a} h hd := by
    cases a with
    | speed | accuracy => exact h.optional? unordered_num hd
    | start => exact h.optional? Geo.Point.unordered.nullable hd
  holds_reset_self {f d a} h := by cases a <;> exact Fields.optional?_of_none h
  holds_reset_of_ne {f d a b} hab h := by
    cases a <;> cases b <;> first | exact h | exact absurd rfl hab

end Demo

namespace VehicleConfig

inductive Field where
  | name
  | interval
  | channelCapacity
  | fusion
  | profile
  | demo
  deriving DecidableEq

def Field.key : Field → String
  | name => "name"
  | interval => "interval_ms"
  | channelCapacity => "channel_capacity"
  | fusion => "fusion"
  | profile => "profile"
  | demo => "demo"

variable [Arith R]

/-- A part of a configuration is read from its own member. -/
def Holds (f : Fields) (c : VehicleConfig R) : Field → Prop
  | .name => f.optional? "name" (default (R := R)).name string? = some c.name
  | .interval =>
    f.optional? "interval_ms" (default (R := R)).interval (unsigned? 64) = some c.interval
  | .channelCapacity =>
    f.optional? "channel_capacity" (default (R := R)).channelCapacity (unsigned? 64) =
      some c.channelCapacity
  | .fusion => f.optional? "fusion" default.fusion Fusion.Settings.ofJson? = some c.fusion
  | .profile => f.optional? "profile" default.profile Profile.ofJson? = some c.profile
  | .demo => f.optional? "demo" default.demo (nullable? Demo.ofJson?) = some c.demo

/-- The configuration with one part at its default. -/
def reset (c : VehicleConfig R) : Field → VehicleConfig R
  | .name => { c with name := (default (R := R)).name }
  | .interval => { c with interval := (default (R := R)).interval }
  | .channelCapacity => { c with channelCapacity := (default (R := R)).channelCapacity }
  | .fusion => { c with fusion := default.fusion }
  | .profile => { c with profile := default.profile }
  | .demo => { c with demo := default.demo }

lemma ofJson?_eq_some_iff {j : Json} {c : VehicleConfig R} :
    ofJson? j = some c ↔ ∃ f, j.fields? fieldNames = some f ∧ ∀ a, c.Holds f a := by
  unfold ofJson?
  simp only [Option.bind_eq_bind, Option.bind_eq_some_iff]
  constructor
  · rintro ⟨f, hf, name, hname, interval, hinterval, capacity, hcapacity, fusion, hfusion, profile,
      hprofile, demo, hdemo, hc⟩
    obtain rfl := Option.some.inj hc
    refine ⟨f, hf, fun a => ?_⟩
    cases a with
    | name => exact hname
    | interval => exact hinterval
    | channelCapacity => exact hcapacity
    | fusion => exact hfusion
    | profile => exact hprofile
    | demo => exact hdemo
  · rintro ⟨f, hf, h⟩
    exact ⟨f, hf, _, h .name, _, h .interval, _, h .channelCapacity, _, h .fusion, _, h .profile, _,
      h .demo, rfl⟩

def form : RecordForm Field (VehicleConfig R) where
  names := fieldNames
  read := ofJson?
  key := Field.key
  Holds f c := c.Holds f
  reset := reset
  key_mem a := by cases a <;> decide
  key_inj {a b} h := by cases a <;> cases b <;> first | rfl | exact absurd h (by decide)
  read_eq_some_iff := ofJson?_eq_some_iff
  holds_congr {f f' c a} h hc := by cases a <;> exact (Fields.optional?_congr h).trans hc
  holds_rearranged {f f' c a} h hc := by
    cases a with
    | name => exact h.optional? unordered_string hc
    | interval | channelCapacity => exact h.optional? (unordered_unsigned 64) hc
    | fusion => exact h.optional? Fusion.Settings.form.unordered hc
    | profile => exact h.optional? Profile.unordered hc
    | demo => exact h.optional? (Unordered.nullable Demo.form.unordered) hc
  holds_reset_self {f c a} h := by cases a <;> exact Fields.optional?_of_none h
  holds_reset_of_ne {f c a b} hab h := by
    cases a <;> cases b <;> first | exact h | exact absurd rfl hab

variable {j j' : Json} {c : VehicleConfig R} {r : Json → Json → Prop}

lemma ofJson?_within_fusion {g : Fusion.Settings R → Fusion.Settings R}
    (hread : ∀ {v v' s}, r v v' → Fusion.Settings.ofJson? v = some s →
      Fusion.Settings.ofJson? v' = some (g s))
    (h : Within "fusion" r j j') (hc : ofJson? j = some c) :
    ofJson? j' = some { c with fusion := g c.fusion } := by
  refine form.read_of_within (a := .fusion) h hc (fun {f b} hb hholds => ?_) ?_
  · cases b <;> first | exact hholds | exact absurd rfl hb
  · intro f f' v v' hr hv hv' hholds
    exact (Fields.optional?_of_some hv').trans
      (hread hr ((Fields.optional?_of_some hv).symm.trans hholds))

lemma ofJson?_within_demo {g : Demo R → Demo R}
    (hread : ∀ {v v' d}, r v v' → Demo.ofJson? v = some d → Demo.ofJson? v' = some (g d))
    (hnull : ∀ {v v'}, r v v' → v ≠ null ∧ v' ≠ null)
    (h : Within "demo" r j j') (hc : ofJson? j = some c) :
    ofJson? j' = some { c with demo := c.demo.map g } := by
  refine form.read_of_within (a := .demo) h hc (fun {f b} hb hholds => ?_) ?_
  · cases b <;> first | exact hholds | exact absurd rfl hb
  · intro f f' v v' hr hv hv' hholds
    obtain ⟨hne, hne'⟩ := hnull hr
    have hdemo : nullable? Demo.ofJson? v = some c.demo :=
      (Fields.optional?_of_some hv).symm.trans hholds
    rw [nullable?_of_ne_null hne] at hdemo
    obtain ⟨d, hd, hsome⟩ := Option.map_eq_some_iff.mp hdemo
    refine (Fields.optional?_of_some hv').trans ?_
    rw [nullable?_of_ne_null hne', hread hr hd, ← hsome]
    rfl

/-- The configuration that a text stands for, valid or not. -/
def decode? (text : String) : Option (VehicleConfig R) := (Json.parse? text).bind ofJson?

lemma decode?_of_parse? {text : String} (h : Json.parse? text = some j) :
    decode? (R := R) text = ofJson? j := by
  rw [decode?, h]
  rfl

/-- Loading a text is decoding and checking it. -/
theorem parse_eq_ok_iff {text : String} :
    parse text = .ok c ↔ decode? text = some c ∧ c.validate = .ok () := by
  unfold parse decode?
  cases (Json.parse? text).bind (ofJson? (R := R)) with
  | none => simp
  | some c' =>
    cases hvalid : c'.validate with
    | error e =>
      have hne (h : c' = c) : c.validate ≠ .ok () := by
        rw [← h, hvalid]
        nofun
      simpa [Except.mapError, Except.map, hvalid] using hne
    | ok _ =>
      have hok (h : c' = c) : c.validate = .ok () := h ▸ hvalid
      simpa [Except.mapError, Except.map, hvalid] using hok

/-- A configuration text is read by the names of its members: their order does not matter, members
of other names are passed over, and without a member what it gives is at its default and all else
stays. Exactly the texts of valid configurations are loaded. -/
theorem texts_are_read_by_name :
    (∀ {text text' : String} {j j' : Json} {c : VehicleConfig R},
      Json.parse? text = some j → Json.parse? text' = some j' → j.Distinct →
        decode? text = some c →
      (Rearranged j j' → decode? text' = some c) ∧
      (Gains fieldNames j j' ∨ Within "fusion" (Gains Fusion.Settings.fieldNames) j j' ∨
        Within "demo" (Gains Demo.fieldNames) j j' → decode? text' = some c) ∧
      (∀ a : Field, Loses a.key j j' → decode? text' = some (c.reset a)) ∧
      (∀ a : Fusion.Settings.Field, Within "fusion" (Loses a.key) j j' →
        decode? text' = some { c with fusion := c.fusion.reset a }) ∧
      ∀ a : Demo.Field, Within "demo" (Loses a.key) j j' →
        decode? text' = some { c with demo := c.demo.map (·.reset a) }) ∧
    ∀ (text : String) (c : VehicleConfig R),
      parse text = .ok c ↔ decode? text = some c ∧ c.validate = .ok () := by
  refine ⟨fun {text text' j j' c} htext htext' hj hc => ?_, fun text c => parse_eq_ok_iff⟩
  rw [decode?_of_parse? htext] at hc
  simp only [decode?_of_parse? htext']
  refine ⟨fun h => form.unordered h hj hc, ?_, fun a h => form.read_of_loses h hc, ?_, ?_⟩
  · rintro (h | h | h)
    · exact form.read_of_gains h hc
    · exact ofJson?_within_fusion (g := id) Fusion.Settings.form.read_of_gains h hc
    · have hdemo := ofJson?_within_demo (g := id) Demo.form.read_of_gains Gains.ne_null h hc
      rwa [Option.map_id] at hdemo
  · exact fun a h => ofJson?_within_fusion Fusion.Settings.form.read_of_loses h hc
  · exact fun a h => ofJson?_within_demo Demo.form.read_of_loses Loses.ne_null h hc

/-- A tram with a demo, the same with its members in the reverse order, and without the speed of
its demo. -/
theorem texts_are_read_by_name_tram :
    let name : String × Json := ("name", str "tram")
    let start : String × Json := ("start", null)
    let speed : String × Json := ("speed_kmh", nat 36)
    let j := obj [name, ("demo", obj [start, speed])]
    let reversed := obj [("demo", obj [start, speed]), name]
    let shorter := obj [name, ("demo", obj [start])]
    j.Distinct ∧ j.Rearranged reversed ∧ Within "demo" (Loses "speed_kmh") j shorter ∧
      ∃ c : VehicleConfig Float, decode? j.compact = some c ∧
        decode? reversed.compact = some c ∧
        decode? shorter.compact = some { c with demo := c.demo.map (·.reset .speed) } ∧
        c.demo.map (·.speed) = some 36.0 := by
  intro name start speed j reversed shorter
  have hlong : Legible (obj [start, speed]) :=
    legible_obj (by simp [start, speed, Legible.null, nat, Legible.number])
  have hshort : Legible (obj [start]) := legible_obj (by simp [start, Legible.null])
  have hname : Legible (str "tram") := .text "tram"
  have hj : Json.parse? j.compact = some j :=
    parse?_compact (legible_obj (by simp [name, hname, hlong]))
  have hreversed : Json.parse? reversed.compact = some reversed :=
    parse?_compact (legible_obj (by simp [name, hname, hlong]))
  have hshorter : Json.parse? shorter.compact = some shorter :=
    parse?_compact (legible_obj (by simp [name, hname, hshort]))
  have hdistinct : j.Distinct := by
    have hdemo : (obj [start, speed]).Distinct := .object (by decide)
      (List.forall_mem_cons.mpr ⟨.null, List.forall_mem_singleton.mpr (.number _)⟩)
    exact .object (by decide)
      (List.forall_mem_cons.mpr ⟨.text _, List.forall_mem_singleton.mpr hdemo⟩)
  have hrearranged : j.Rearranged reversed := .members (List.Perm.swap _ _ _)
  have hloses : Within "demo" (Loses "speed_kmh") j shorter :=
    ⟨[(some "name", str "tram")], [], _, _, ⟨[(some "start", null)], [], _, rfl, rfl⟩, rfl, rfl⟩
  have hspeed : ((ofJson? j : Option (VehicleConfig Float)).bind (·.demo)).map (·.speed) =
      some 36.0 := by
    decide +kernel
  obtain ⟨d, hd, hspeed⟩ := Option.map_eq_some_iff.mp hspeed
  obtain ⟨c, hc, hd⟩ := Option.bind_eq_some_iff.mp hd
  have hdecode : decode? j.compact = some c := (decode?_of_parse? hj).trans hc
  obtain ⟨hsame, -⟩ := texts_are_read_by_name.1 hj hreversed hdistinct hdecode
  obtain ⟨-, -, -, -, hreset⟩ := texts_are_read_by_name.1 hj hshorter hdistinct hdecode
  refine ⟨hdistinct, hrearranged, hloses, c, hdecode, hsame hrearranged, hreset .speed hloses, ?_⟩
  rw [hd, Option.map_some, hspeed]

end VehicleConfig

end Whereabouts
