import Discovery.Proofs.Roster
import Mathlib.Logic.Relation

/-!
# What consumers do while they are called

A consumer that is called may deal with the very roster that it is called from: it attaches and
detaches consumers, has a key told or one consumer of a key, and at last returns or panics.  What it
does next may depend on the answers and on all that has happened so far.  Those who are called for
this may do the same.

A `Scene` is a roster with the number of calls that are under way and a journal of what has
happened.

* `stage`: consumers that do anything of this while they are called.
* `Change`, `Changes`: what may happen next, and in the course of time.
* `course_stage`: what happens while a consumer is called happens in such steps, one level up.
* `course_perform`: the same for what is asked of a roster.
-/

namespace Discovery

/-- What has happened.  A call that is made while no other is under way is at level 1, one that is
made from there is at level 2, and so on. -/
inductive Scene.Entry where
  | attached (key : String) (c : Consumer)
  | detached (key : String) (c : Consumer)
  | called (level : Nat) (c : Consumer) (data : Payload)
  | returned (level : Nat) (o : Outcome)
deriving DecidableEq

/-- A roster, how many calls are under way, and what has happened. -/
structure Scene where
  roster : Roster
  level : Nat
  journal : List Scene.Entry
deriving DecidableEq

namespace Scene

def ofKind (kind : String) : Scene :=
  ⟨.ofKind kind, 0, []⟩

def attach (s : Scene) (key : String) (c : Consumer) : Scene :=
  { s with
    roster := (s.roster.enroll key c).1
    journal := s.journal ++ [.attached key c] }

def detach (s : Scene) (key : String) (c : Consumer) : Scene :=
  { s with
    roster := (s.roster.dismiss key c).1
    journal := s.journal ++ [.detached key c] }

def enter (s : Scene) (c : Consumer) (data : Payload) : Scene :=
  { s with
    level := s.level + 1
    journal := s.journal ++ [.called (s.level + 1) c data] }

def leave (s : Scene) (level : Nat) (o : Outcome) : Scene :=
  { s with
    level
    journal := s.journal ++ [.returned (level + 1) o] }

/-! ### Consumers that act -/

/-- What may be asked of a roster. -/
inductive Wish where
  | attach (key : String) (c : Consumer)
  | detach (key : String) (c : Consumer)
  | tell (key : String) (data : Payload)
  | tellOne (key : String) (c : Consumer) (data : Payload)
deriving DecidableEq

/-- What a consumer does from a moment on: it returns or panics, or it asks for something and goes
on by the answer and by what has happened meanwhile. -/
inductive Program where
  | stop (o : Outcome)
  | ask (w : Wish) (next : Nat → Scene → Program)

/-- What consumers do when they are called. -/
abbrev Conduct := Scene → Consumer → Payload → Program

def host (act : Scene → Consumer → Payload → Scene × Outcome) : Host Scene where
  roster := roster
  update f s := { s with roster := f s.roster }
  call c data s :=
    let (s', o) := act (s.enter c data) c data
    (s'.leave s.level o, o)
  log _ s := s

/-- Asks something of the roster.  The number is the answer. -/
def Wish.perform (h : Host Scene) (s : Scene) : Wish → Scene × Nat
  | .attach key c => (s.attach key c, (s.roster.enroll key c).2)
  | .detach key c => (s.detach key c, (s.roster.dismiss key c).2)
  | .tell key data => h.tell key data s
  | .tellOne key c data => ((h.tellOne key c data s).1, (h.tellOne key c data s).2.toNat)

def Program.run (h : Host Scene) : Program → Scene → Scene × Outcome
  | .stop o, s => (s, o)
  | .ask w next, s => (next (w.perform h s).2 (w.perform h s).1).run h (w.perform h s).1

/-- Consumers that do something while they are called, to a depth of calls within calls.  Whoever is
called deeper just returns, and so any course of events that comes to an end is one on a stage that
is deep enough. -/
def stage (conduct : Conduct) : Nat → Host Scene
  | 0 => host fun s _ _ => (s, .completed)
  | depth + 1 => host fun s c data => (conduct s c data).run (stage conduct depth) s

def performAll (h : Host Scene) (s : Scene) (ws : List Wish) : Scene :=
  ws.foldl (fun s w => (w.perform h s).1) s

/-! ### What may happen -/

/-- What may happen next.  Deliveries are counted in the meter only. -/
inductive Change : Scene → Scene → Prop
  | attach {s : Scene} (key : String) (c : Consumer) : Change s (s.attach key c)
  | detach {s : Scene} (key : String) (c : Consumer) : Change s (s.detach key c)
  | enter {s : Scene} (c : Consumer) (data : Payload) : Change s (s.enter c data)
  | leave {s : Scene} (level : Nat) (o : Outcome) : Change s (s.leave level o)
  | count {s : Scene} (n : Nat) : Change s { s with roster := s.roster.addDeliveries n }

/-- What may happen in the course of time. -/
abbrev Changes : Scene → Scene → Prop :=
  Relation.ReflTransGen Change

/-- A call is above a level.  All else is at no level. -/
def Entry.IsAbove (level : Nat) : Entry → Prop
  | .called l _ _ => level < l
  | .returned l _ => level < l
  | _ => True

theorem Entry.IsAbove.mono {e : Entry} {l m : Nat} (h : e.IsAbove m) (hl : l ≤ m) :
    e.IsAbove l := by
  cases e with
  | called | returned => exact Nat.lt_of_le_of_lt hl h
  | attached | detached => trivial

/-- What happens from one moment to another while the calls that are under way stay so: all calls
made meanwhile are above them, and have returned. -/
structure Course (s s' : Scene) : Prop where
  changes : Changes s s'
  level : s'.level = s.level
  journal : ∃ new, s'.journal = s.journal ++ new ∧ ∀ e ∈ new, e.IsAbove s.level

variable {s s' s'' : Scene} {act : Scene → Consumer → Payload → Scene × Outcome} {h : Host Scene}

theorem Course.refl (s : Scene) : Course s s :=
  ⟨.refl, rfl, [], (List.append_nil _).symm, nofun⟩

theorem Course.trans (h : Course s s') (h' : Course s' s'') : Course s s'' := by
  obtain ⟨new, hnew, habove⟩ := h.journal
  obtain ⟨new', hnew', habove'⟩ := h'.journal
  refine ⟨h.changes.trans h'.changes, h'.level.trans h.level, new ++ new', ?_, ?_⟩
  · rw [hnew', hnew, List.append_assoc]
  · intro e he
    rcases List.mem_append.1 he with he | he
    · exact habove e he
    · exact h.level ▸ habove' e he

theorem course_attach (s : Scene) (key : String) (c : Consumer) : Course s (s.attach key c) :=
  ⟨.single (.attach key c), rfl, [.attached key c], rfl, by simp [Entry.IsAbove]⟩

theorem course_detach (s : Scene) (key : String) (c : Consumer) : Course s (s.detach key c) :=
  ⟨.single (.detach key c), rfl, [.detached key c], rfl, by simp [Entry.IsAbove]⟩

theorem course_count (s : Scene) (n : Nat) :
    Course s { s with roster := s.roster.addDeliveries n } :=
  ⟨.single (.count n), rfl, [], (List.append_nil _).symm, nofun⟩

/-- **A call of a consumer** is entered in the journal one level up, before and behind all that
happens in it, which is above it. -/
theorem journal_call (hact : ∀ s c data, Course s (act s c data).1) (c : Consumer)
    (data : Payload) (s : Scene) : ∃ inner,
      ((host act).call c data s).1.journal = s.journal ++ .called (s.level + 1) c data ::
        (inner ++ [.returned (s.level + 1) ((host act).call c data s).2]) ∧
      ∀ e ∈ inner, e.IsAbove (s.level + 1) := by
  obtain ⟨inner, hinner, habove⟩ := (hact (s.enter c data) c data).journal
  refine ⟨inner, ?_, habove⟩
  show (act (s.enter c data) c data).1.journal ++ [.returned (s.level + 1) _] = _
  rw [hinner]
  show (s.journal ++ [_]) ++ inner ++ [_] = _
  rw [List.append_assoc, List.append_assoc]
  rfl

/-- What happens while a consumer is called goes on above the calls that are under way. -/
theorem course_call (hact : ∀ s c data, Course s (act s c data).1) (c : Consumer)
    (data : Payload) (s : Scene) : Course s ((host act).call c data s).1 := by
  obtain ⟨inner, hjournal, habove⟩ := journal_call hact c data s
  have hchanges : Changes s ((host act).call c data s).1 :=
    (Relation.ReflTransGen.head (.enter c data) (hact (s.enter c data) c data).changes).tail
      (.leave s.level _)
  refine ⟨hchanges, rfl, _, hjournal, ?_⟩
  intro e he
  rcases List.mem_cons.1 he with rfl | he
  · exact Nat.lt_succ_self _
  rcases List.mem_append.1 he with he | he
  · exact (habove e he).mono (Nat.le_succ _)
  · rw [List.mem_singleton.1 he]
    exact Nat.lt_succ_self _

theorem course_tell (hact : ∀ s c data, Course s (act s c data).1) (key : String)
    (data : Payload) (s : Scene) : Course s ((host act).tell key data s).1 :=
  Host.tell_induction (h := host act) (P := fun _ s' => Course s s')
    (fun c hs => hs.trans (course_call hact c data _)) (fun _ hs => hs)
    (fun n hs => hs.trans (course_count _ n)) (.refl s)

theorem course_tellOne (hact : ∀ s c data, Course s (act s c data).1) (key : String)
    (c : Consumer) (data : Payload) (s : Scene) :
    Course s ((host act).tellOne key c data s).1 :=
  Host.tellOne_induction (h := host act) (P := fun _ s' => Course s s')
    (fun c hs => hs.trans (course_call hact c data _)) (fun _ hs => hs)
    (fun n hs => hs.trans (course_count _ n)) c (.refl s)

theorem course_wish (hact : ∀ s c data, Course s (act s c data).1) (w : Wish) (s : Scene) :
    Course s (w.perform (host act) s).1 := by
  cases w with
  | attach key c => exact course_attach s key c
  | detach key c => exact course_detach s key c
  | tell key data => exact course_tell hact key data s
  | tellOne key c data => exact course_tellOne hact key c data s

theorem course_program (hact : ∀ s c data, Course s (act s c data).1) (p : Program) (s : Scene) :
    Course s (p.run (host act) s).1 := by
  induction p generalizing s with
  | stop o => exact .refl s
  | ask w next ih => exact (course_wish hact w s).trans (ih _ _ _)

/-- **On a stage** whatever consumers do while they are called goes on above the calls that are
under way. -/
theorem course_stage (conduct : Conduct) (depth : Nat) :
    ∃ act, stage conduct depth = host act ∧ ∀ s c data, Course s (act s c data).1 := by
  induction depth with
  | zero => exact ⟨_, rfl, fun s _ _ => .refl s⟩
  | succ depth ih =>
    obtain ⟨act, hstage, hact⟩ := ih
    refine ⟨_, rfl, fun s c data => ?_⟩
    rw [hstage]
    exact course_program hact _ s

/-- **Whatever is asked of a roster** goes on above the calls that are under way. -/
theorem course_perform (conduct : Conduct) (depth : Nat) (w : Wish) (s : Scene) :
    Course s (w.perform (stage conduct depth) s).1 := by
  obtain ⟨act, hstage, hact⟩ := course_stage conduct depth
  rw [hstage]
  exact course_wish hact w s

theorem course_performAll (conduct : Conduct) (depth : Nat) (ws : List Wish) (s : Scene) :
    Course s (s.performAll (stage conduct depth) ws) := by
  induction ws generalizing s with
  | nil => exact .refl s
  | cons w ws ih => exact (course_perform conduct depth w s).trans (ih _)

end Scene

end Discovery
