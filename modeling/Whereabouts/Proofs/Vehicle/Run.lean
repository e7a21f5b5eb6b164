import Whereabouts.Vehicle
import Mathlib.Data.List.Nodup
import Mathlib.Tactic.Common

/-! Runs of a vehicle: what its calls leave alone, and what each listener is told. -/
namespace Whereabouts.Vehicle

/-- What the owner of a vehicle calls, and what the handles of its providers do. -/
inductive Call (R : Type) where
  | addSource (s : Source R)
  | addProvider (name : String) (kind : ProviderKind)
  | send (slot : Nat) (m : ProviderMessage R)
  | cloneHandle (slot : Nat)
  | dropHandle (slot : Nat)
  | subscribe
  | setRoute (r : Option (Route R))
  | setProfile (p : Profile R)
  | setPosition (p : Geo.Point R) (now : Timestamp)
  | update (now : Timestamp)
  | updateWith (c : Clock)

variable {R : Type}

/-- Change the provider in a slot if one is there. -/
def withProvider (v : Vehicle R) (slot : Nat) (f : Provider R → Provider R) : Vehicle R :=
  match v.sources[slot]? with
  | some (id, .provider p) => { v with sources := v.sources.set slot (id, .provider (f p)) }
  | _ => v

/-- What a call announces, and the vehicle after it. A call that fails leaves the vehicle as it
is. -/
def call [Arith R] (v : Vehicle R) : Call R → List Announcement × Vehicle R
  | .addSource s => ([], ((v.addSource s).map (·.2)).toOption.getD v)
  | .addProvider name kind => ([], ((v.addProvider name kind).map (·.2)).toOption.getD v)
  | .send slot m => ([], ((v.send? slot m).bind Except.toOption).getD v)
  | .cloneHandle slot => ([], v.withProvider slot Provider.cloneHandle)
  | .dropHandle slot => ([], v.withProvider slot Provider.dropHandle)
  | .subscribe => ([], v.subscribe.2)
  | .setRoute r => ([], v.setRoute r)
  | .setProfile p => ([], v.setProfile p)
  | .setPosition p now => ([], (v.setPosition p now).2)
  | .update now => (v.update now).2
  | .updateWith c => (v.updateWith c).2

/-- The attributes that a listener is told about, in order. -/
def heard (i : Nat) (as : List Announcement) : List Attribute :=
  (as.filter (·.listener == i)).map (·.subject)

/-- Each listener is told about every announced attribute once. -/
theorem heard_announcements {v : Vehicle R} {i : Nat} (hi : i < v.listeners) (c : Changes) :
    heard i (v.announcements c) = v.config.fusion.announced c := by
  have hrange : (List.range v.listeners).filter (· == i) = [i] := by
    rw [List.filter_beq, List.count_eq_one_of_mem List.nodup_range (List.mem_range.mpr hi)]
    rfl
  have hone (a : Attribute) : heard i ((List.range v.listeners).map fun j => ⟨j, a⟩) = [a] := by
    rw [heard, List.filter_map]
    exact congrArg (fun js => (js.map fun j => Announcement.mk j a).map (·.subject)) hrange
  unfold announcements
  induction v.config.fusion.announced c with
  | nil => rfl
  | cons a as ih =>
    rw [List.flatMap_cons, heard, List.filter_append, List.map_append]
    exact congrArg₂ (· ++ ·) (hone a) ih

/-- The configuration stays, and no listener goes away. -/
structure Continues (v w : Vehicle R) : Prop where
  config_eq : w.config = v.config
  listeners_le : v.listeners ≤ w.listeners

/-- The fused location stays too. -/
structure Rests (v w : Vehicle R) : Prop extends Continues v w where
  fused_eq : w.fused = v.fused

/-- So does the text of its fix time. -/
structure Idles (v w : Vehicle R) : Prop extends Rests v w where
  text_eq : w.fixTimeText = v.fixTimeText

lemma idles_refl (v : Vehicle R) : v.Idles v := ⟨⟨⟨rfl, Nat.le_refl _⟩, rfl⟩, rfl⟩

lemma idles_withProvider (v : Vehicle R) (slot : Nat) (f : Provider R → Provider R) :
    v.Idles (v.withProvider slot f) := by
  unfold withProvider
  split
  · exact ⟨⟨⟨rfl, Nat.le_refl _⟩, rfl⟩, rfl⟩
  · exact idles_refl v

lemma idles_send (v : Vehicle R) (slot : Nat) (m : ProviderMessage R) :
    v.Idles (((v.send? slot m).bind Except.toOption).getD v) := by
  unfold send?
  split
  · next p _ =>
    cases p.send m with
    | error e => exact idles_refl v
    | ok q => exact ⟨⟨⟨rfl, Nat.le_refl _⟩, rfl⟩, rfl⟩
  · exact idles_refl v

variable [Arith R]

lemma idles_of_addSource {v w : Vehicle R} {s : Source R}
    (h : (v.addSource s).map (·.2) = .ok w) : v.Idles w := by
  unfold addSource at h
  split at h <;> cases h
  exact ⟨⟨⟨rfl, Nat.le_refl _⟩, rfl⟩, rfl⟩

lemma idles_addSource (v : Vehicle R) (s : Source R) :
    v.Idles (((v.addSource s).map (·.2)).toOption.getD v) := by
  cases h : (v.addSource s).map (·.2) with
  | error e => exact idles_refl v
  | ok w => exact idles_of_addSource h

/-- A call either announces nothing and leaves the fused location and its text alone, or it is an
update. -/
theorem call_cases (v : Vehicle R) (c : Call R) :
    ((v.call c).1 = [] ∧ v.Idles (v.call c).2) ∨ ∃ now, v.call c = (v.update now).2 := by
  cases c with
  | addSource s => exact .inl ⟨rfl, idles_addSource v s⟩
  | addProvider name kind => exact .inl ⟨rfl, idles_addSource v _⟩
  | send slot m => exact .inl ⟨rfl, idles_send v slot m⟩
  | cloneHandle slot => exact .inl ⟨rfl, idles_withProvider v slot _⟩
  | dropHandle slot => exact .inl ⟨rfl, idles_withProvider v slot _⟩
  | subscribe => exact .inl ⟨rfl, ⟨⟨rfl, Nat.le_succ _⟩, rfl⟩, rfl⟩
  | setRoute | setProfile | setPosition => exact .inl ⟨rfl, ⟨⟨rfl, Nat.le_refl _⟩, rfl⟩, rfl⟩
  | update now => exact .inr ⟨now, rfl⟩
  | updateWith c => exact .inr ⟨c.now, rfl⟩

theorem continues_call (v : Vehicle R) (c : Call R) : v.Continues (v.call c).2 := by
  rcases v.call_cases c with ⟨-, h⟩ | ⟨now, h⟩
  · exact h.toContinues
  · rw [h]
    exact ⟨rfl, Nat.le_refl _⟩

/-- An update passes over the slots of the store as the sources leave them. -/
theorem update_eq (v : Vehicle R) (now : Timestamp) :
    let x := Fusion.pass v.config.fusion (v.pollAll now).store.slots v.fused
    (v.update now).2.1 = v.announcements x.2 ∧ (v.update now).2.2.fused = x.1 :=
  ⟨rfl, rfl⟩

end Whereabouts.Vehicle
