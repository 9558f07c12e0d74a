import Discovery.Proofs.Naming.Directory
import Discovery.Proofs.Roster
import Discovery.Proofs.Services.OneListener

/-!
# What the consumers of a registry hear

A directory owes its listeners word of each change.  The listener of a registry passes it on for
each instance on its own: the consumers of the service that the instance names are told its
metadata.  A `Broadcast` is an interplay over a directory in which this is done, and what the
consumers were told so far.

* `step`, `run`: the moves of an interplay, where the deliveries that a request owes are made
  before anything else happens.
* `told_hearAll`: what deliveries lead to is that consumers are told.
* `exists_count_step`, `run_induction`: a move of a broadcast is one of its interplay, before which
  the registry may have counted.
-/

namespace Discovery.Registry.Services

open Naming (Delivery Directory Event Request)

/-- A registry over a directory with its calls in progress, what its consumers were told, and how
they take it. -/
structure Broadcast where
  play : Interplay Directory
  heard : List Notice
  conduct : Conduct

namespace Broadcast

def begin (conduct : Conduct) (d : Directory) (id : Nat) : Broadcast :=
  ⟨.begin d id, [], conduct⟩

abbrev consumers (b : Broadcast) (k : String) : List Consumer :=
  b.play.consumers k

/-! ### Telling -/

def host (key : String) : Host Broadcast where
  roster b := b.play.core.roster
  update f b := { b with play.registry.core.roster := f b.play.core.roster }
  call c data b := ({ b with heard := b.heard ++ [⟨key, c, data⟩] }, b.conduct b.heard c data)
  log _ b := b

/-- The listener of a registry hears of a service: for each instance the consumers of its service
are told the metadata. -/
def forward (b : Broadcast) (e : Event) : Broadcast :=
  e.instances.foldl (fun b i => ((host i.service).tell i.service i.metadata b).1) b

/-- A listener is called.  What the listeners of others do is not seen here. -/
def hear (b : Broadcast) (d : Delivery) : Broadcast :=
  if d.listener.isOf b.play.core.id then b.forward d.event else b

def hearAll (b : Broadcast) (ds : List Delivery) : Broadcast :=
  ds.foldl hear b

/-! ### Moves -/

def ask (b : Broadcast) (q : Request) : Broadcast :=
  let (client, ds) := b.play.client.answer q
  { b with play.client := client }.hearAll ds

/-- A call goes on.  Its consumers have heard of its request before it is answered. -/
def go (b : Broadcast) (n : Nat) (c : Call) : Broadcast :=
  match c.need with
  | .ask q =>
    let b := b.ask q
    { b with play := b.play.take n (b.play.registry.resume c (.answered (.ok ()))) }
  | _ => { b with play := b.play.go Directory.provider n () c }

/-- **One move**, if it is possible.  The directory does nothing by itself. -/
def step (b : Broadcast) : Move Directory Unit → Option Broadcast
  | .go n _ => (b.play.calls n).map (b.go n)
  | .request _ q => if q.listener?.any (·.isOf b.play.core.id) then none else some (b.ask q)
  | .change _ => none
  | m => (b.play.step Directory.provider m).map fun play => { b with play }

def run (b : Broadcast) (ms : List (Move Directory Unit)) : Option Broadcast :=
  ms.foldlM step b

/-! ### What telling changes -/

variable {b b' b'' : Broadcast} {m : Move Directory Unit} {ms : List (Move Directory Unit)}

/-- The consumers have heard more, and the registry has counted; nothing else has changed. -/
def Told (b : Broadcast) (new : List Notice) (b' : Broadcast) : Prop :=
  ∃ m, b' = { b with play.registry := b.play.registry.withMeter m, heard := b.heard ++ new }

theorem told_nil (b : Broadcast) : b.Told [] b :=
  ⟨b.play.core.roster.meter, by rw [List.append_nil]; rfl⟩

theorem Told.trans {new more : List Notice} (h : b.Told new b') (h' : b'.Told more b'') :
    b.Told (new ++ more) b'' := by
  obtain ⟨m, rfl⟩ := h
  obtain ⟨m', rfl⟩ := h'
  refine ⟨m', ?_⟩
  rw [← List.append_assoc]
  rfl

def notices (b : Broadcast) (key : String) (data : Payload) : List Notice :=
  (b.consumers key).map fun c => ⟨key, c, data⟩

theorem told_tell (key : String) (data : Payload) (b : Broadcast) :
    b.Told (b.notices key data) ((host key).tell key data b).1 := by
  refine Host.tell_induction (h := host key)
    (P := fun cs b' => b.Told (cs.map fun c => ⟨key, c, data⟩) b') ?_ (fun _ h => h) ?_
    (told_nil b)
  · intro cs b' c h
    rw [List.map_append]
    exact h.trans ⟨b'.play.core.roster.meter, rfl⟩
  · rintro cs b' n ⟨m, rfl⟩
    exact ⟨_, rfl⟩

def notes (b : Broadcast) (e : Event) : List Notice :=
  e.instances.flatMap fun i => b.notices i.service i.metadata

theorem Told.notices_eq {new : List Notice} (h : b.Told new b') : b'.notices = b.notices := by
  obtain ⟨m, rfl⟩ := h
  rfl

theorem told_forward (b : Broadcast) (e : Event) : b.Told (b.notes e) (b.forward e) := by
  obtain ⟨service, is⟩ := e
  unfold forward notes
  dsimp only
  induction is generalizing b with
  | nil => exact told_nil b
  | cons i is ih =>
    have hi := told_tell i.service i.metadata b
    have his := ih ((host i.service).tell i.service i.metadata b).1
    rw [hi.notices_eq] at his
    exact hi.trans his

def told (b : Broadcast) (d : Delivery) : List Notice :=
  if d.listener.isOf b.play.core.id then b.notes d.event else []

theorem told_hear (b : Broadcast) (d : Delivery) : b.Told (b.told d) (b.hear d) := by
  unfold told hear
  split
  · exact told_forward b d.event
  · exact told_nil b

theorem Told.told_eq {new : List Notice} (h : b.Told new b') : b'.told = b.told := by
  obtain ⟨m, rfl⟩ := h
  rfl

/-- **Deliveries lead to consumers being told**, and that is all. -/
theorem told_hearAll : ∀ (ds : List Delivery) (b : Broadcast),
    b.Told (ds.flatMap b.told) (b.hearAll ds) := by
  intro ds
  induction ds with
  | nil => exact told_nil
  | cons d ds ih =>
    intro b
    have hd := told_hear b d
    have hds := ih (b.hear d)
    rw [hd.told_eq] at hds
    exact hd.trans hds

theorem told_ask (b : Broadcast) (q : Request) :
    Told { b with play.client := (b.play.client.answer q).1 }
      ((b.play.client.answer q).2.flatMap b.told) (b.ask q) :=
  told_hearAll _ _

/-! ### Broadcasts and interplays -/

theorem go_of_need {n : Nat} {c : Call} (hc : ∀ q, c.need ≠ .ask q) :
    b.go n c = { b with play := b.play.go Directory.provider n () c } := by
  unfold go
  split
  · next q hq => exact absurd hq (hc q)
  · rfl

theorem run_count (play : Interplay Directory) (meter : Meter) (m : Move Directory Unit) :
    play.run Directory.provider [.count meter, m] =
      (({ play with registry := play.registry.withMeter meter } : Interplay Directory).step
        Directory.provider m).bind some :=
  rfl

/-- **A move of a broadcast is one of its interplay**, before which the registry may have
counted. -/
theorem exists_count_step (hs : b.step m = some b') : ∃ meter,
    b.play.run Directory.provider [.count meter, m] = some b'.play := by
  have hplain : ∀ {play : Interplay Directory}, b.play.step Directory.provider m = some play →
      ∃ meter, b.play.run Directory.provider [.count meter, m] = some play := fun hplay =>
    ⟨b.play.core.roster.meter, by rw [run_count]; exact congrArg (Option.bind · some) hplay⟩
  cases m with
  | start n a =>
    obtain ⟨play, hplay, rfl⟩ := Option.map_eq_some_iff.1 hs
    exact hplain hplay
  | fail n why =>
    obtain ⟨play, hplay, rfl⟩ := Option.map_eq_some_iff.1 hs
    exact hplain hplay
  | count meter =>
    obtain rfl := Option.some.inj hs
    exact hplain rfl
  | change d => exact nomatch hs
  | request w q =>
    obtain ⟨hq, hs⟩ := Option.ite_none_left_eq_some.1 hs
    obtain ⟨meter, hasked⟩ := told_ask b q
    refine ⟨meter, ?_⟩
    rw [← Option.some.inj hs, hasked, run_count]
    exact congrArg (Option.bind · some) (if_neg hq)
  | go n w =>
    obtain ⟨c, hc, rfl⟩ := Option.map_eq_some_iff.1 hs
    by_cases hask : ∃ q, c.need = .ask q
    · obtain ⟨q, hneed⟩ := hask
      obtain ⟨meter, hasked⟩ := told_ask b q
      refine ⟨meter, ?_⟩
      have hgo : b.go n c = { b.ask q with
          play := (b.ask q).play.take n ((b.ask q).play.registry.answered c (.ok ())) } := by
        unfold go
        rw [hneed]
        rfl
      rw [run_count, hgo, hasked]
      show ((b.play.calls n).map _).bind some = _
      rw [hc]
      show some (Interplay.go Directory.provider _ n () c) = _
      rw [Interplay.go_ask hneed rfl]
      rfl
    · rw [go_of_need fun q hq => hask ⟨q, hq⟩]
      refine hplain ?_
      show (b.play.calls n).map _ = _
      rw [hc]
      rfl

theorem id_step (hs : b.step m = some b') : b'.play.core.id = b.play.core.id := by
  obtain ⟨meter, hrun⟩ := exists_count_step hs
  exact (Interplay.later_run hrun).id

/-- **What each move of the interplay keeps**, a run of the broadcast keeps. -/
theorem run_induction {P : Interplay Directory → Prop} {Q : Move Directory Unit → Prop}
    (hcount : ∀ meter, Q (.count meter))
    (hstep : ∀ {s s' : Interplay Directory} {m}, P s → Q m → (∀ d, m ≠ .change d) →
      s.step Directory.provider m = some s' → P s')
    (hP : P b.play) (hms : ∀ m ∈ ms, Q m) (hs : b.run ms = some b') : P b'.play := by
  induction ms generalizing b with
  | nil => exact Option.some.inj hs ▸ hP
  | cons m ms ih =>
    obtain ⟨t, ht, hs⟩ := Option.bind_eq_some_iff.1 hs
    obtain ⟨meter, hplay⟩ := exists_count_step ht
    rw [run_count] at hplay
    obtain ⟨u, hu, hplay⟩ := Option.bind_eq_some_iff.1 hplay
    have hchange : ∀ d, m ≠ .change d := by
      rintro d rfl
      exact nomatch ht
    have hPt : P t.play := by
      rw [← Option.some.inj hplay]
      exact hstep (hstep hP (hcount meter) nofun rfl) (hms m List.mem_cons_self) hchange hu
    exact ih hPt (fun x hx => hms x (List.mem_cons_of_mem _ hx)) hs

end Broadcast

end Discovery.Registry.Services
