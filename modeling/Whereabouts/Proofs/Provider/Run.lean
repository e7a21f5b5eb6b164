import Whereabouts.Proofs.Provider.Report

/-! Runs of a provider: what its handles send, also while a poll of its source is under way, and
what the polls take in, message by message. -/
namespace Whereabouts.Provider

/-- A provider and the poll of its source that is under way. -/
structure Scene (R : Type) where
  provider : Provider R
  poll? : Option Poll := none

/-- What the owners of handles do, and the steps of a poll. -/
inductive Move (R : Type) where
  | send (m : ProviderMessage R)
  | cloneHandle
  | dropHandle
  | begin (now : Timestamp)
  | receive
  | finish

/-- What the senders and the poller know. -/
structure Ledger (R : Type) where
  /-- The location that was told last. -/
  known : Location R
  /-- Messages whose sender was not refused, in order. -/
  accepted : List (ProviderMessage R) := []
  /-- Those that were received, each with the time of the poll that received it. -/
  taken : List (Intake R) := []
  /-- Those that were not received yet. -/
  pending : List (ProviderMessage R) := []

namespace Ledger

variable {R : Type}

def accept (g : Ledger R) (m : ProviderMessage R) : Ledger R :=
  { g with accepted := g.accepted ++ [m], pending := g.pending ++ [m] }

def receive (g : Ledger R) (now : Timestamp) : Ledger R :=
  match g.pending with
  | [] => g
  | m :: rest => { g with taken := g.taken ++ [(now, m)], pending := rest }

def learn (g : Ledger R) (told? : Option (Location R)) : Ledger R :=
  { g with known := told?.getD g.known }

end Ledger

variable {R : Type} [Arith R]

/-- A new provider, of which a blank location is known. -/
def opening (name : String) (kind : ProviderKind) (capacity : Nat) : Scene R × Ledger R :=
  ({ provider := new name kind capacity }, { known := Location.blank kind.preference })

/-- A move and what it adds to the ledger. Without a handle nobody can send or clone. Polls do not
overlap, and a poll ends when it finds nothing to receive; a move that cannot be made changes
nothing. -/
def follow (x : Scene R × Ledger R) : Move R → Scene R × Ledger R
  | .send m =>
    if x.1.provider.handles = 0 then x
    else
      match x.1.provider.send m with
      | .ok p => ({ x.1 with provider := p }, x.2.accept m)
      | .error _ => x
  | .cloneHandle =>
    if x.1.provider.handles = 0 then x
    else ({ x.1 with provider := x.1.provider.cloneHandle }, x.2)
  | .dropHandle => ({ x.1 with provider := x.1.provider.dropHandle }, x.2)
  | .begin now =>
    match x.1.poll? with
    | some _ => x
    | none => ({ x.1 with poll? := some { now := now } }, x.2)
  | .receive =>
    match x.1.poll? with
    | none => x
    | some poll =>
      match x.1.provider.receive? poll with
      | none => x
      | some (p, poll) => (⟨p, some poll⟩, x.2.receive poll.now)
  | .finish =>
    match x.1.poll? with
    | none => x
    | some poll =>
      match x.1.provider.receive? poll with
      | some _ => x
      | none => (⟨x.1.provider, none⟩, x.2.learn (x.1.provider.told? poll))

/-- The provider keeps what its ledger says. Unless the poll under way has recorded a change, its
location is known. -/
structure Keeps (kind : ProviderKind) (capacity : Nat) (x : Scene R × Ledger R) : Prop where
  kind_eq : x.1.provider.kind = kind
  connected : x.1.provider.channel.connected = true
  capacity_eq : x.1.provider.channel.capacity = capacity
  waiting_eq : x.1.provider.channel.waiting = x.2.pending
  length_le : x.2.pending.length ≤ capacity
  accepted_eq : x.2.accepted = x.2.taken.map (·.2) ++ x.2.pending
  current_eq : x.1.provider.current = replay kind x.2.taken
  known_eq : (∀ poll, x.1.poll? = some poll → poll.changed = false) →
    x.2.known = x.1.provider.current

omit [Arith R] in
lemma send_eq_map (p : Provider R) (m : ProviderMessage R) :
    p.send m = (p.channel.send m).map fun c => { p with channel := c } :=
  rfl

/-- What a poll does with the oldest message. -/
lemma follow_receive {x : Scene R × Ledger R} {poll : Poll} (hpoll : x.1.poll? = some poll)
    {m : ProviderMessage R} {rest : List (ProviderMessage R)}
    (hwaiting : x.1.provider.channel.waiting = m :: rest) (hpending : x.2.pending = m :: rest) :
    follow x .receive =
      (⟨{ x.1.provider with
            channel := { x.1.provider.channel with waiting := rest }
            current := take x.1.provider.kind x.1.provider.current (poll.now, m) },
          some { poll with
            changed := poll.changed ||
              (after? x.1.provider.kind poll.now x.1.provider.current m).isSome }⟩,
        { x.2 with taken := x.2.taken ++ [(poll.now, m)], pending := rest }) := by
  simp only [follow, hpoll, receive?_of_cons hwaiting, Ledger.receive, hpending]

lemma follow_receive_of_nil {x : Scene R × Ledger R}
    (hwaiting : x.1.provider.channel.waiting = []) : follow x .receive = x := by
  cases hpoll : x.1.poll? with
  | none => simp only [follow, hpoll]
  | some poll => simp only [follow, hpoll, (receive?_eq_none_iff _ _).mpr hwaiting]

lemma follow_finish {x : Scene R × Ledger R} {poll : Poll} (hpoll : x.1.poll? = some poll)
    (hwaiting : x.1.provider.channel.waiting = []) :
    follow x .finish = (⟨x.1.provider, none⟩, x.2.learn (x.1.provider.told? poll)) := by
  simp only [follow, hpoll, (receive?_eq_none_iff _ _).mpr hwaiting]

lemma follow_finish_of_cons {x : Scene R × Ledger R} {m : ProviderMessage R}
    {rest : List (ProviderMessage R)} (hwaiting : x.1.provider.channel.waiting = m :: rest) :
    follow x .finish = x := by
  cases hpoll : x.1.poll? with
  | none => simp only [follow, hpoll]
  | some poll => simp only [follow, hpoll, receive?_of_cons hwaiting]

namespace Keeps

variable {kind : ProviderKind} {capacity : Nat} {x : Scene R × Ledger R}

lemma opening (name : String) (kind : ProviderKind) (capacity : Nat) :
    Keeps kind capacity (opening name kind capacity : Scene R × Ledger R) :=
  ⟨rfl, rfl, rfl, rfl, Nat.zero_le _, rfl, rfl, fun _ => rfl⟩

/-- There is room unless as many accepted messages as the capacity allows are pending. -/
lemma send_eq_error_iff (h : Keeps kind capacity x) (m : ProviderMessage R) (e : SendFault) :
    x.1.provider.send m = .error e ↔ x.2.pending.length = capacity ∧ e = .full := by
  have hchannel : x.1.provider.send m = .error e ↔ x.1.provider.channel.send m = .error e := by
    rw [send_eq_map]
    cases x.1.provider.channel.send m <;> simp [Except.map]
  rw [hchannel, Channel.send_eq_error_iff h.connected, h.waiting_eq, h.capacity_eq]
  have hle := h.length_le
  have hfull : capacity ≤ x.2.pending.length ↔ x.2.pending.length = capacity := by omega
  rw [hfull]

lemma accept (h : Keeps kind capacity x) {m : ProviderMessage R} {p : Provider R}
    (hp : x.1.provider.send m = .ok p) :
    Keeps kind capacity ({ x.1 with provider := p }, x.2.accept m) := by
  rw [send_eq_map] at hp
  cases hc : x.1.provider.channel.send m with
  | error e => rw [hc] at hp; cases hp
  | ok c =>
    rw [hc] at hp
    obtain rfl := Except.ok.inj hp
    obtain ⟨hconnected, hroom, rfl⟩ := (Channel.send_eq_ok_iff _ _ _).mp hc
    have hpending : x.1.provider.channel.waiting ++ [m] = x.2.pending ++ [m] := by
      rw [h.waiting_eq]
    rw [h.waiting_eq, h.capacity_eq] at hroom
    refine ⟨h.kind_eq, h.connected, h.capacity_eq, hpending, ?_, ?_, h.current_eq, h.known_eq⟩
    · simp only [Ledger.accept, List.length_append, List.length_singleton]
      omega
    · simp only [Ledger.accept, h.accepted_eq, List.append_assoc]

lemma begin (h : Keeps kind capacity x) (now : Timestamp) :
    Keeps kind capacity (follow x (.begin now)) := by
  cases hpoll : x.1.poll? with
  | some poll => simpa only [follow, hpoll] using h
  | none =>
    simp only [follow, hpoll]
    have hknown := h.known_eq fun poll hsome => by simp [hpoll] at hsome
    exact ⟨h.1, h.2, h.3, h.4, h.5, h.6, h.7, fun _ => hknown⟩

lemma receive (h : Keeps kind capacity x) : Keeps kind capacity (follow x .receive) := by
  cases hpoll : x.1.poll? with
  | none => simpa only [follow, hpoll] using h
  | some poll =>
    cases hpending : x.2.pending with
    | nil =>
      rw [follow_receive_of_nil (h.waiting_eq.trans hpending)]
      exact h
    | cons m rest =>
      rw [follow_receive hpoll (h.waiting_eq.trans hpending) hpending]
      have hlength := h.length_le
      have haccepted := h.accepted_eq
      rw [hpending] at hlength haccepted
      refine ⟨h.kind_eq, h.connected, h.capacity_eq, rfl, Nat.le_of_succ_le hlength, ?_, ?_, ?_⟩
      · simpa using haccepted
      · rw [replay_append, ← h.current_eq, h.kind_eq]
      · intro hunchanged
        obtain ⟨hbefore, hafter⟩ := Bool.or_eq_false_iff.mp (hunchanged _ rfl)
        have hnone : after? x.1.provider.kind poll.now x.1.provider.current m = none := by
          simpa using hafter
        have hknown := h.known_eq fun poll' hsome => by
          rw [← Option.some.inj (hpoll.symm.trans hsome)]
          exact hbefore
        simp only [take, hnone, Option.getD_none]
        exact hknown

/-- The poll that ends tells its changes. -/
lemma finish (h : Keeps kind capacity x) : Keeps kind capacity (follow x .finish) := by
  cases hpoll : x.1.poll? with
  | none => simpa only [follow, hpoll] using h
  | some poll =>
    cases hpending : x.2.pending with
    | cons m rest =>
      rw [follow_finish_of_cons (h.waiting_eq.trans hpending)]
      exact h
    | nil =>
      rw [follow_finish hpoll (h.waiting_eq.trans hpending)]
      refine ⟨h.1, h.2, h.3, h.4, h.5, h.6, h.7, fun _ => ?_⟩
      cases hchanged : poll.changed with
      | true => simp [Ledger.learn, told?, hchanged]
      | false =>
        have hknown := h.known_eq fun poll' hsome => by
          rw [← Option.some.inj (hpoll.symm.trans hsome)]
          exact hchanged
        simpa [Ledger.learn, told?, hchanged] using hknown

lemma follow (h : Keeps kind capacity x) (move : Move R) :
    Keeps kind capacity (follow x move) := by
  cases move with
  | send m =>
    simp only [Provider.follow]
    split_ifs with hhandles
    · exact h
    · cases hm : x.1.provider.send m with
      | ok p => exact h.accept hm
      | error e => exact h
  | cloneHandle =>
    simp only [Provider.follow]
    split_ifs with hhandles
    · exact h
    · exact ⟨h.1, h.2, h.3, h.4, h.5, h.6, h.7, h.8⟩
  | dropHandle => exact ⟨h.1, h.2, h.3, h.4, h.5, h.6, h.7, h.8⟩
  | begin now => exact h.begin now
  | receive => exact h.receive
  | finish => exact h.finish

lemma foldl_follow (h : Keeps kind capacity x) (moves : List (Move R)) :
    Keeps kind capacity (moves.foldl Provider.follow x) := by
  induction moves generalizing x with
  | nil => exact h
  | cons move moves ih => exact ih (h.follow move)

end Keeps

/-- After any moves with a new provider, also with sends between the steps of a poll: a sender is
refused exactly when as many accepted messages as the channel has room for are pending, for want of
room, and then nothing changes. The accepted messages are those that were taken in, each once and in
order, and then those that are pending. The location is what the taken ones add up to; the sound
fixes are those that pass the check for storing. A poll takes the oldest pending message at its own
time, whether handles are left or not. It ends when nothing is pending and not before, and the
location is known then, as it is until the next poll begins. -/
theorem takes_accepted_messages (name : String) (kind : ProviderKind) (capacity : Nat)
    (moves : List (Move R)) :
    let x := moves.foldl follow (opening name kind capacity)
    (∀ m e, x.1.provider.send m = .error e ↔ x.2.pending.length = capacity ∧ e = .full) ∧
    (∀ m e, x.1.provider.send m = .error e → follow x (.send m) = x) ∧
    x.2.accepted = x.2.taken.map (·.2) ++ x.2.pending ∧
    x.1.provider.current = replay kind x.2.taken ∧
    x.1.provider.current.reading = report kind x.2.taken ∧
    (∀ before now f, (located kind before now f : Location R).sanitize.2 = none ↔
      f.isSound = true) ∧
    (∀ poll, x.1.poll? = some poll →
      (∀ m rest, x.2.pending = m :: rest → follow x .finish = x ∧
        (follow x .receive).2 =
          { x.2 with taken := x.2.taken ++ [(poll.now, m)], pending := rest }) ∧
      (x.2.pending = [] → follow x .receive = x ∧
        let y := follow x .finish
        y.1.poll? = none ∧ y.1.provider = x.1.provider ∧ y.2.known = x.1.provider.current)) ∧
    (x.1.poll? = none → x.2.known = x.1.provider.current) := by
  intro x
  have hx : Keeps kind capacity x := (Keeps.opening name kind capacity).foldl_follow moves
  refine ⟨hx.send_eq_error_iff, ?_, hx.accepted_eq, hx.current_eq, ?_, snd_sanitize_located kind,
    fun poll hpoll => ⟨fun m rest hpending => ?_, fun hpending => ?_⟩, fun hpoll => ?_⟩
  · intro m e hm
    simp only [follow, hm]
    exact ite_self x
  · rw [hx.current_eq]
    exact reading_replay kind _
  · have hwaiting := hx.waiting_eq.trans hpending
    rw [follow_receive hpoll hwaiting hpending]
    exact ⟨follow_finish_of_cons hwaiting, rfl⟩
  · have hwaiting := hx.waiting_eq.trans hpending
    have hend : follow x .finish = (⟨x.1.provider, none⟩, x.2.learn (x.1.provider.told? poll)) :=
      follow_finish hpoll hwaiting
    have hknown := hx.finish.known_eq (by simp [hend])
    rw [hend] at hknown ⊢
    exact ⟨follow_receive_of_nil hwaiting, rfl, rfl, hknown⟩
  · exact hx.known_eq fun poll hsome => by simp [hpoll] at hsome

/-- With room for two, a third message is refused until a poll under way has received the first, and
that poll goes on to receive the one that is sent then. -/
example :
    let send (used : Nat) : Move Float := .send (.satellites 9 used)
    let moves := [send 1, send 2, send 3, .begin 5, .receive, send 4, send 5, .receive, .receive,
      .finish]
    let x := moves.foldl follow (opening "gps" .gps 2)
    x.2.taken = [1, 2, 4].map fun used => (5, .satellites 9 used) :=
  rfl

/-- Receptions in a row go on with the poll as far as they can. -/
lemma foldl_receive (n : Nat) (p : Provider R) (poll : Poll) (g : Ledger R) :
    ∃ g' : Ledger R, g'.known = g.known ∧
      (List.replicate n Move.receive).foldl follow (⟨p, some poll⟩, g) =
        (⟨(receiveUpTo n (p, poll)).1, some (receiveUpTo n (p, poll)).2⟩, g') := by
  induction n generalizing p poll g with
  | zero => exact ⟨g, rfl, rfl⟩
  | succ n ih =>
    rw [List.replicate_succ, List.foldl_cons]
    cases hreceive : p.receive? poll with
    | none =>
      have hstays : follow (⟨p, some poll⟩, g) .receive = (⟨p, some poll⟩, g) := by
        simp only [follow, hreceive]
      have hsame : receiveUpTo n (p, poll) = receiveUpTo (n + 1) (p, poll) := by
        cases n <;> simp only [receiveUpTo, hreceive]
      rw [hstays, ← hsame]
      exact ih p poll g
    | some y =>
      obtain ⟨g', hknown, hfoldl⟩ := ih y.1 y.2 (g.receive y.2.now)
      have hstep : follow (⟨p, some poll⟩, g) .receive = (⟨y.1, some y.2⟩, g.receive y.2.now) := by
        simp only [follow, hreceive]
      refine ⟨g', hknown.trans ?_, ?_⟩
      · unfold Ledger.receive
        cases g.pending <;> rfl
      · rw [hstep, hfoldl]
        simp only [receiveUpTo, hreceive]

/-- When nobody sends meanwhile, the steps of a poll make the poll that runs. -/
theorem foldl_poll {x : Scene R × Ledger R} (hx : x.1.poll? = none) (now : Timestamp) :
    let steps : List (Move R) :=
      .begin now :: List.replicate x.1.provider.channel.waiting.length .receive ++ [.finish]
    let y := steps.foldl follow x
    y.1 = ⟨(x.1.provider.poll now).2, none⟩ ∧
      y.2.known = (x.1.provider.poll now).1.getD x.2.known := by
  intro steps y
  have hbegin : follow x (.begin now) = (⟨x.1.provider, some { now := now }⟩, x.2) := by
    simp only [follow, hx]
  obtain ⟨g, hknown, hfoldl⟩ := foldl_receive x.1.provider.channel.waiting.length x.1.provider
    { now := now } x.2
  have hnil : (x.1.provider.poll now).2.channel.waiting = [] :=
    congrArg (·.channel.waiting) (snd_poll x.1.provider now)
  have hy : y = (⟨(x.1.provider.poll now).2, none⟩, g.learn (x.1.provider.poll now).1) := by
    simp only [y, steps, List.foldl_cons, List.foldl_append, List.foldl_nil, hbegin, hfoldl]
    exact follow_finish rfl hnil
  rw [hy, ← hknown]
  exact ⟨rfl, rfl⟩

end Whereabouts.Provider
