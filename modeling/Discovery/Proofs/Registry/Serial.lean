import Discovery.Proofs.Locks.Line
import Discovery.Proofs.Registry.Alone
import Discovery.Proofs.Registry.FanOut
import Discovery.Proofs.Registry.Progress
import Discovery.Proofs.Tree.Bare

/-!
# One thing after another

In a serial run each call is over before anything else happens.

* `Serial`: a serial run, and `Serial.unique`: what it comes to is determined.
* `Unvisited`: no call is on a key, as is so between two calls of a serial run.  Then a key with
  consumers is watched once, and any other key is not (`Unvisited.watchesFor_cases`).
* `Visited`: what a whole call on a key comes to, and `Unvisited.exists_subscribe`,
  `Unvisited.exists_unsubscribe`: each of these calls comes to that.
* `Unvisited.heardUnder_undergo`: what is heard under a key when the tree is used.
-/

namespace Discovery.Registry

open Discovery.Tree (Reply Request)
open Discovery.Tree.Server (Act)

/-- What others do to the server in a move of theirs. -/
def Move.act? : Move → Option Act
  | .connect => some .connect
  | .request t q => some (.request t q)
  | .write p data => some (.write p data)
  | .close t => some (.close t)
  | _ => none

namespace Interplay

variable {place : String → String} {s t u s' : Interplay} {n : Nat} {a : Action} {m : Move}
  {ms : List Move} {c : Nodes.Call} {v : Visit} {k p : String} {act : Act}

/-! ### Serial runs -/

/-- **A serial run**: whole calls, and what others do in between.  A call that begins stands for
the whole of it. -/
inductive Serial : Interplay → List Move → Interplay → Prop
  | nil (s : Interplay) : Serial s [] s
  | call {s t u : Interplay} {n : Nat} {a : Action} {ms : List Move} (alone : s.Alone n a t)
      (rest : Serial t ms u) : Serial s (.start n a :: ms) u
  | use {s t u : Interplay} {m : Move} {ms : List Move} (others : m.act?.isSome)
      (step : s.step m = some t) (rest : Serial t ms u) : Serial s (m :: ms) u

theorem run_go_of_over (h : s.calls n = none) {j : Nat}
    (hs : s.run (List.replicate j (.go n)) = some t) : t = s := by
  cases j with
  | zero => exact (Option.some.inj hs).symm
  | succ j =>
    have hstep : s.step (.go n) = none := by
      show (s.calls n).map (s.go n) = none
      rw [h]
      rfl
    rw [List.replicate_succ, run_cons, hstep] at hs
    exact nomatch hs

theorem Alone.unique (h : s.Alone n a t) (h' : s.Alone n a u) : u = t := by
  have hle : ∀ {i j : Nat} {t u : Interplay}, i ≤ j →
      s.run (.start n a :: List.replicate i (.go n)) = some t →
      s.run (.start n a :: List.replicate j (.go n)) = some u → t.calls n = none → u = t := by
    intro i j t u hij ht hu hover
    obtain ⟨d, rfl⟩ := Nat.exists_eq_add_of_le hij
    rw [List.replicate_add, ← List.cons_append, run_append, ht] at hu
    exact run_go_of_over hover hu
  obtain ⟨i, hi, hover⟩ := h
  obtain ⟨j, hj, hover'⟩ := h'
  rcases Nat.le_total i j with hij | hji
  · exact hle hij hi hj hover
  · exact (hle hji hj hi hover').symm

/-- **What a serial run comes to is determined.** -/
theorem Serial.unique (h : s.Serial ms t) (h' : s.Serial ms u) : u = t := by
  induction h with
  | nil s => cases h' with
    | nil => rfl
  | call alone rest ih =>
    cases h' with
    | call alone' rest' =>
      obtain rfl := alone.unique alone'
      exact ih rest'
    | use others => exact nomatch others
  | use others step rest ih =>
    cases h' with
    | call => exact nomatch others
    | use others' step' rest' =>
      obtain rfl := Option.some.inj (step'.symm.trans step)
      exact ih rest'

/-- **A serial run is a run**, in which nothing begins that does not begin in the serial run. -/
theorem Serial.exists_run (h : s.Serial ms t) :
    ∃ ms', s.run ms' = some t ∧ ∀ m ∈ ms', m ∈ ms ∨ ∃ n, m = .go n := by
  induction h with
  | nil s => exact ⟨[], rfl, nofun⟩
  | @call s t u n a ms alone rest ih =>
    obtain ⟨i, hrun, _⟩ := alone
    obtain ⟨ms', hrun', hms'⟩ := ih
    refine ⟨(.start n a :: List.replicate i (.go n)) ++ ms', ?_, fun m hm => ?_⟩
    · rw [run_append, hrun]
      exact hrun'
    · rcases List.mem_append.1 hm with hm | hm
      · rcases List.mem_cons.1 hm with rfl | hm
        · exact .inl List.mem_cons_self
        · exact .inr ⟨n, List.eq_of_mem_replicate hm⟩
      · exact (hms' m hm).imp (List.mem_cons_of_mem _) id
  | @use s t u m ms others step rest ih =>
    obtain ⟨ms', hrun', hms'⟩ := ih
    refine ⟨m :: ms', ?_, fun m' hm => ?_⟩
    · rw [run_cons, step]
      exact hrun'
    · rcases List.mem_cons.1 hm with rfl | hm
      · exact .inl List.mem_cons_self
      · exact (hms' m' hm).imp (List.mem_cons_of_mem _) id

theorem step_start (h : s.calls n = none) :
    s.step (.start n a) = some (s.take n (s.registry.start a)) := by
  unfold step
  dsimp only
  rw [h]

theorem step_go (h : s.calls n = some c) : s.step (.go n) = some (s.go n c) := by
  show (s.calls n).map (s.go n) = _
  rw [h]
  rfl

/-! ### No call on a key -/

/-- **No call is on a key**: nobody is in line, and no request of the registry has failed. -/
structure Unvisited (place : String → String) (s : Interplay) : Prop where
  orderly : s.Orderly place
  covered : s.Covered place
  plain : ∀ n c, s.calls n = some c → c.visit? = none
  claims : s.core.locks.claims = []

theorem Unvisited.beside (h : s.Unvisited place) (hb : s.Beside s') : s'.Unvisited place := by
  refine ⟨h.orderly.beside hb, ?_, fun n c hc => ?_, ?_⟩
  · exact h.orderly.covered_effect h.covered (.beside (m := .connect) hb) nofun
  · cases hv : c.visit? with
    | none => rfl
    | some v => exact nomatch hv.symm.trans (h.plain n c ((hb.calls n c v hv).1 hc))
  · obtain ⟨m, hm⟩ := hb.registry
    unfold core
    rw [hm]
    exact h.claims

theorem unvisited_begin {conduct : Conduct} {v : Tree.Server} {id : Nat} {session : Tree.SessionId}
    (hopen : v.isClosed session = false)
    (hnew : ∀ p, ∀ w ∈ v.tree.watchesAt p, w.listener.isOf id = false) :
    (begin conduct v id session).Unvisited place :=
  ⟨orderly_begin hopen hnew, covered_begin, nofun, rfl⟩

/-- **A key with consumers is watched once, at its place, and any other key is not.** -/
theorem Unvisited.watchesFor_cases (h : s.Unvisited place) (k p : String) :
    (p = place k ∧ s.consumers k ≠ [] ∧
      ∃ i, s.watchesFor k p = [⟨s.registry.session, s.core.listener k i⟩]) ∨
    ((p = place k → s.consumers k = []) ∧ s.watchesFor k p = []) := by
  rcases h.orderly.watched k p with hnil | ⟨hp, i, hi, hb⟩
  · refine .inr ⟨fun hp => ?_, hnil⟩
    by_contra hne
    subst hp
    rcases h.covered k hne with hw | ⟨n, v, l, hn, _⟩
    · exact hw hnil
    · exact nomatch h.plain n _ hn
  · refine .inl ⟨hp, (h.orderly.listed k).1 ((hasListener_iff _ _).2 ⟨i, ?_⟩), i, hi⟩
    rcases hb with hb | ⟨n, v, hn⟩
    · exact hb
    · exact nomatch h.plain n _ hn

theorem Unvisited.length_watchesOf (h : s.Unvisited place) (k : String) :
    (s.watchesOf k).length = if s.consumers k = [] then 0 else 1 := by
  rw [h.orderly.watchesOf_eq, List.length_map]
  rcases h.watchesFor_cases k (place k) with ⟨_, hne, i, hi⟩ | ⟨hnil, hw⟩
  · rw [hi, if_neg hne]
    rfl
  · rw [hw, if_pos (hnil rfl)]
    rfl

/-! ### The tree is used -/

/-- The server undergoes an act, and the listeners are called. -/
def undergo (s : Interplay) (act : Act) : Interplay :=
  { s with server := (s.server.act act).1 }.hearAll (s.server.act act).2

theorem told_undergo (s : Interplay) (act : Act) :
    Told { s with server := (s.server.act act).1 }
      ((s.server.act act).2.flatMap s.core.told) (s.undergo act) :=
  told_hearAll _ _

theorem undergo_of_step (ha : m.act? = some act) (hs : s.step m = some t) : t = s.undergo act := by
  cases m with
  | connect =>
    obtain rfl := Option.some.inj ha
    exact (Option.some.inj hs).symm
  | request x q =>
    obtain rfl := Option.some.inj ha
    exact (Option.some.inj (Option.ite_none_left_eq_some.1 hs).2).symm
  | write p data =>
    obtain rfl := Option.some.inj ha
    exact (Option.some.inj hs).symm
  | close x =>
    obtain rfl := Option.some.inj ha
    exact (Option.some.inj (Option.ite_none_left_eq_some.1 hs).2).symm
  | _ => exact nomatch ha

/-- Who may do something to the server while one registry is there may do it while another with the
same identity is. -/
theorem step_of_step (ha : m.act? = some act) (hid : u.core.id = s.core.id)
    (hsession : u.registry.session = s.registry.session) (hs : s.step m = some t) :
    u.step m = some (u.undergo act) := by
  cases m with
  | connect =>
    obtain rfl := Option.some.inj ha
    rfl
  | request x q =>
    obtain rfl := Option.some.inj ha
    obtain ⟨hq, _⟩ := Option.ite_none_left_eq_some.1 hs
    exact Option.ite_none_left_eq_some.2 ⟨by rw [hid]; exact hq, rfl⟩
  | write p data =>
    obtain rfl := Option.some.inj ha
    rfl
  | close x =>
    obtain rfl := Option.some.inj ha
    obtain ⟨hx, _⟩ := Option.ite_none_left_eq_some.1 hs
    exact Option.ite_none_left_eq_some.2 ⟨by rw [hsession]; exact hx, rfl⟩
  | _ => exact nomatch ha

theorem Orderly.beside_of_step (h : s.Orderly place) (ha : m.act? = some act)
    (hs : s.step m = some t) : s.Beside t := by
  have hm : m.Placed place := by
    cases m with
    | start => exact nomatch ha
    | _ => trivial
  cases h.step_effect hm hs with
  | beside hb => exact hb
  | _ => exact nomatch ha

def heardUnder (s : Interplay) (k : String) : List Notice :=
  s.heard.filter (·.key == k)

/-- Word of new data for the consumers of a key, if it can be decoded. -/
def word (s : Interplay) (k : String) (bytes : Bytes) : List Notice :=
  match Payload.decode bytes with
  | .ok data => (s.consumers k).map fun c => ⟨k, c, data⟩
  | .error _ => []

theorem word_of_nil (h : s.consumers k = []) (bytes : Bytes) : s.word k bytes = [] := by
  unfold word
  rw [h]
  cases Payload.decode bytes <;> rfl

theorem filter_told (s : Interplay) (k : String) (l : Listener) (p : String) (bytes : Bytes) :
    (s.core.told ⟨l, .changed p bytes⟩).filter (·.key == k) =
      if l.isFor s.core.id k then s.core.told ⟨l, .changed p bytes⟩ else [] := by
  split
  · next hl =>
    refine List.filter_eq_self.2 fun x hx => beq_iff_eq.2 ?_
    obtain ⟨i, hi⟩ := isFor_iff.1 (mem_told_iff.1 hx).1
    obtain ⟨j, hj⟩ := isFor_iff.1 hl
    exact (Listener.forwarder.inj (hi.symm.trans hj)).2.1
  · next hl =>
    refine List.filter_eq_nil_iff.2 fun x hx he => hl ?_
    exact eq_of_beq he ▸ (mem_told_iff.1 hx).1

theorem filter_told_deliveries (s : Interplay) (k p : String) (bytes : Bytes) :
    ((s.server.tree.deliveries p (.changed p bytes)).flatMap s.core.told).filter (·.key == k) =
      (s.watchesFor k p).flatMap fun w => s.core.told ⟨w.listener, .changed p bytes⟩ := by
  unfold Tree.deliveries watchesFor
  rw [List.flatMap_map]
  induction s.server.tree.watchesAt p with
  | nil => rfl
  | cons w ws ih =>
    rw [List.flatMap_cons, List.filter_append, ih, filter_told, List.filter_cons]
    split <;> rfl

/-- **What is heard under a key** when a node is given data: the consumers of the key get word of
it if the node is at the place of the key. -/
theorem Unvisited.heardUnder_undergo (h : s.Unvisited place) {bytes : Bytes}
    (hact : s.server.Does act (.changed p bytes)) (k : String) : (s.undergo act).heardUnder k =
      s.heardUnder k ++ if p = place k then s.word k bytes else [] := by
  obtain ⟨m, hm⟩ := s.told_undergo act
  unfold heardUnder
  rw [hm, Tree.Server.owed_of_changed hact, List.filter_append, filter_told_deliveries]
  congr 1
  rcases h.watchesFor_cases k p with ⟨hp, _, i, hi⟩ | ⟨hnil, hw⟩
  · rw [hi, if_pos hp, List.flatMap_singleton]
    unfold Core.told Core.listener word
    dsimp only
    cases Payload.decode bytes <;> exact if_pos rfl
  · rw [hw, List.flatMap_nil]
    split
    · next hp => exact (word_of_nil (hnil hp) bytes).symm
    · rfl

theorem heard_undergo_of_not_changed (h : ∀ p bytes, ¬ s.server.Does act (.changed p bytes)) :
    (s.undergo act).heard = s.heard := by
  obtain ⟨m, hm⟩ := s.told_undergo act
  have hnil : (s.server.act act).2.flatMap s.core.told = [] := by
    refine List.flatMap_eq_nil_iff.2 fun d hd => ?_
    obtain ⟨l, e⟩ := d
    obtain ⟨q, rfl⟩ := Tree.Server.deleted_of_not_changed h _ hd
    exact told_deleted _ _ _
  rw [hm, hnil]
  exact List.append_nil _

/-! ### A call on a key -/

/-- **What a whole call on a key comes to**: the key has new consumers, one of them may have got
word, and nobody is on a key afterwards. -/
structure Visited (place : String → String) (s : Interplay) (k : String) (cs : List Consumer)
    (new : List Notice) (t : Interplay) : Prop where
  unvisited : t.Unvisited place
  server : t.server.bare = s.server.bare
  id : t.core.id = s.core.id
  session : t.registry.session = s.registry.session
  calls : t.calls = s.calls
  consumers : ∀ j, t.consumers j = if j = k then cs else s.consumers j
  heard : t.heard = s.heard ++ new

/-- A call on a key stands at `c`, and nobody else is on a key. -/
structure Midway (s : Interplay) (n : Nat) (v : Visit) (c : Nodes.Call) (u : Interplay) : Prop where
  calls : u.calls = Function.update s.calls n (some c)
  server : u.server.bare = s.server.bare
  heard : u.heard = s.heard
  claims : ∀ x ∈ u.core.locks.claims, x.ticket = v.ticket

variable {d : Nodes.Call} {l : Listener}

theorem Midway.call (h : s.Midway n v c u) : u.calls n = some c := by
  rw [h.calls]
  exact Function.update_self ..

/-- A step of the call that neither tells anybody anything nor concerns the locks. -/
theorem Midway.next (h : s.Midway n v c u) (hcalls : t.calls = Function.update u.calls n (some d))
    (hserver : t.server.bare = u.server.bare) (hheard : t.heard = u.heard)
    (hlocks : t.core.locks = u.core.locks) : s.Midway n v d t := by
  refine ⟨?_, hserver.trans h.server, hheard.trans h.heard, fun x hx => h.claims x (hlocks ▸ hx)⟩
  rw [hcalls, h.calls, Function.update_idem]

theorem Midway.look (h : s.Midway n v c u) (hu : u.core.locks.Sound) (ticket : Nat) :
    s.Midway n v c (u.look ticket) := by
  refine ⟨h.calls, h.server, h.heard, fun x hx => ?_⟩
  have hmem : x.ticket ∈ (u.core.locks.poll ticket).claims.map (·.ticket) :=
    List.mem_map.2 ⟨x, hx, rfl⟩
  rw [Locks.map_ticket_poll hu] at hmem
  obtain ⟨y, hy, hyx⟩ := List.mem_map.1 hmem
  exact hyx.symm.trans (h.claims y hy)

/-- **A call that stands at `u` comes to its end**: it leaves the tree but for its watches and the
other calls of `s` as they are, and after it nobody is in line. -/
def Closes (s u : Interplay) (n : Nat) (after : String → List Consumer) (new : List Notice) :
    Prop :=
  ∃ i t, u.run (List.replicate i (.go n)) = some t ∧ t.calls = s.calls ∧
    t.core.locks.claims = [] ∧ t.server.bare = s.server.bare ∧ t.heard = s.heard ++ new ∧
    ∀ j, t.consumers j = after j

theorem Closes.of_step {after : String → List Consumer} {new : List Notice}
    (hstep : u.step (.go n) = some t) (h : s.Closes t n after new) : s.Closes u n after new := by
  obtain ⟨i, w, hrun, hend⟩ := h
  refine ⟨i + 1, w, ?_, hend⟩
  rw [List.replicate_succ, run_cons, hstep]
  exact hrun

/-- The call leaves, after it has told somebody something or has changed watches. -/
theorem Midway.closes (h : s.Midway n v c u) (hu : u.core.locks.Sound) (hfree : s.calls n = none)
    {w : Interplay} {m : Meter} {new : List Notice} (hcalls : w.calls = u.calls)
    (hlocks : w.core.locks = u.core.locks) (hserver : w.server.bare = u.server.bare)
    (hheard : w.heard = u.heard ++ new) :
    (w.leave n v m).calls = s.calls ∧ (w.leave n v m).core.locks.claims = [] ∧
      (w.leave n v m).server.bare = s.server.bare ∧ (w.leave n v m).heard = s.heard ++ new := by
  refine ⟨?_, List.eq_nil_iff_forall_not_mem.2 fun x hx => ?_, hserver.trans h.server,
    hheard.trans (congrArg (· ++ new) h.heard)⟩
  · show Function.update w.calls n none = s.calls
    rw [hcalls, h.calls, Function.update_idem, ← hfree, Function.update_eq_self]
  · have hdrop : x ∈ (w.core.locks.drop v.ticket).claims := hx
    rw [hlocks] at hdrop
    obtain ⟨hx, hne⟩ := (Locks.mem_claims_drop hu).1 hdrop
    exact hne (h.claims x hx)

theorem Midway.closes_of_step (h : s.Midway n v c u) (hu : u.core.locks.Sound)
    (hfree : s.calls n = none) {w : Interplay} {m : Meter} {new : List Notice}
    (hgo : u.go n c = w.leave n v m) (hcalls : w.calls = u.calls)
    (hlocks : w.core.locks = u.core.locks) (hserver : w.server.bare = u.server.bare)
    (hheard : w.heard = u.heard ++ new) : s.Closes u n w.consumers new := by
  obtain ⟨hc, hl, hs, hh⟩ := h.closes (m := m) hu hfree hcalls hlocks hserver hheard
  refine ⟨1, w.leave n v m, ?_, hc, hl, hs, hh, fun _ => rfl⟩
  rw [List.replicate_one, run_cons, step_go h.call, hgo]
  rfl

theorem Unvisited.line (h : s.Unvisited place) (n : Nat) (call : Visit → Nodes.Call) (k : String)
    (x : Consumer) :
    s.Midway n ⟨k, place k, x, s.core.locks.nextTicket⟩
      (call ⟨k, place k, x, s.core.locks.nextTicket⟩) (s.line n call k (place k) x) := by
  refine ⟨rfl, rfl, rfl, fun y hy => ?_⟩
  rcases (Locks.mem_claims_request h.orderly.locks).1 hy with hy | rfl
  · rw [h.claims] at hy
    exact nomatch hy
  · rfl

theorem Unvisited.visited (h : s.Unvisited place) (ha : (Move.start n a).Placed place)
    (halone : s.Alone n a t) (hserver : t.server.bare = s.server.bare) (hcalls : t.calls = s.calls)
    (hclaims : t.core.locks.claims = []) {cs : List Consumer} {new : List Notice}
    (hcons : ∀ j, t.consumers j = if j = k then cs else s.consumers j)
    (hheard : t.heard = s.heard ++ new) : s.Visited place k cs new t := by
  obtain ⟨i, hrun, _⟩ := halone
  have hms : ∀ m ∈ (.start n a :: List.replicate i (.go n) : List Move), m.Placed place := by
    intro m hm
    rcases List.mem_cons.1 hm with rfl | hm
    · exact ha
    · rw [List.eq_of_mem_replicate hm]
      trivial
  have hfail : ∀ n' why,
      Move.fail n' why ∉ (.start n a :: List.replicate i (.go n) : List Move) := by
    intro n' why hm
    rcases List.mem_cons.1 hm with hm | hm
    · exact nomatch hm
    · exact nomatch List.eq_of_mem_replicate hm
  obtain ⟨hid, hsession⟩ := h.orderly.registry_run hms hrun
  refine ⟨⟨h.orderly.run hms hrun, h.orderly.covered_run h.covered hms hfail hrun, ?_, hclaims⟩,
    hserver, hid, hsession, hcalls, hcons, hheard⟩
  rw [hcalls]
  exact h.plain

def joined (cs : List Consumer) (x : Consumer) : List Consumer :=
  if cs.contains x then cs else cs ++ [x]

/-- Word for a consumer that has just come, of what the node of its key has already. -/
def firstWord (s : Interplay) (k p : String) (x : Consumer) : List Notice :=
  (s.found? p).toList.map fun data => ⟨k, x, data⟩

theorem found?_congr (h : t.server.bare = s.server.bare) (p : String) :
    t.found? p = s.found? p := by
  unfold found?
  rw [Tree.Server.data?_congr h]

/-- A call that lines up while nobody is on a key has its lock when it looks. -/
theorem Unvisited.admitted (h : s.Unvisited place) (hfree : s.calls n = none)
    {call : Visit → Nodes.Call} (hcall : call = .enter ∨ call = .enterOut) (k : String)
    (x : Consumer) : ∃ u v, (s.line n call k (place k) x).step (.go n) =
        some (u.letIn n (call v)) ∧ (v.key = k ∧ v.path = place k ∧ v.consumer = x) ∧
      u.Orderly place ∧ u.core.locks.holds v.ticket = true ∧ s.Midway n v (call v) u ∧
      ∀ j, u.consumers j = s.consumers j := by
  have hline := h.orderly.line hfree hcall k x
  have hmid := h.line n call k x
  have hholds : ((s.line n call k (place k) x).look s.core.locks.nextTicket).core.locks.holds
      s.core.locks.nextTicket = true := Locks.holds_poll_request_of_idle h.claims k
  refine ⟨_, _, ?_, ⟨rfl, rfl, rfl⟩, hline.look _, hholds, hmid.look hline.locks _, fun _ => rfl⟩
  rw [step_go hmid.call]
  rcases hcall with rfl | rfl
  · rw [go_look rfl, if_pos hholds]
    rfl
  · rw [go_look rfl, if_pos hholds]
    rfl

theorem Midway.enter (h : s.Midway n v (.enter v) u) (hu : u.Orderly place)
    (hholds : u.core.locks.holds v.ticket = true) :
    ∃ l w, w = u.letIn n (.enter v) ∧ w.Orderly place ∧ s.Midway n v (.watch v l) w ∧
      ∀ j, w.consumers j =
        if j = v.key then joined (u.consumers v.key) v.consumer else u.consumers j := by
  obtain ⟨_, _, _, _, _, _, hlocks, _⟩ := Nodes.listenerFor_spec (u.core.attach v) v.key
  exact ⟨_, _, rfl, hu.enter h.call hholds, h.next rfl rfl rfl hlocks, consumers_enter u n v⟩

theorem Midway.watch (h : s.Midway n v (.watch v l) u) (hu : u.Orderly place) :
    ∃ w, u.step (.go n) = some w ∧ w.Orderly place ∧ s.Midway n v (.read v) w ∧
      ∀ j, w.consumers j = u.consumers j := by
  refine ⟨u.watch n v l, ?_, hu.watch h.call, h.next rfl ?_ rfl rfl, fun _ => rfl⟩
  · rw [step_go h.call, hu.go_watch]
  · show Tree.Server.bare { u.server with tree := u.server.tree.watch _ _ _ } = _
    unfold Tree.Server.bare
    dsimp only
    rw [Tree.bare_watch]

/-- What there is already is read, and the consumer is handed it. -/
theorem Midway.read (h : s.Midway n v (.read v) u) (hu : u.Orderly place) (hfree : s.calls n = none)
    (hmem : v.consumer ∈ u.consumers v.key) :
    s.Closes u n u.consumers (s.firstWord v.key v.path v.consumer) := by
  have hgo := hu.grounded.go_read n v
  have hfound : u.found? v.path = s.found? v.path := found?_congr h.server v.path
  unfold firstWord
  rw [← hfound]
  cases hdata : u.found? v.path with
  | none =>
    rw [hdata] at hgo
    exact h.closes_of_step hu.locks hfree hgo rfl rfl rfl (List.append_nil _).symm
  | some data =>
    rw [hdata] at hgo
    have hstep : u.step (.go n) = some (u.find n v data) := by
      rw [step_go h.call, hgo]
    have hnext : s.Midway n v (.hand v data) (u.find n v data) := h.next rfl rfl rfl rfl
    obtain ⟨m, hhand⟩ := (u.find n v data).go_hand n v data
    have hheard : (u.find n v data).handed v data = [⟨v.key, v.consumer, data⟩] := if_pos hmem
    rw [hheard] at hhand
    have hcloses := hnext.closes_of_step hu.locks hfree hhand rfl rfl rfl rfl
    exact .of_step hstep hcloses

/-- **A whole call to subscribe**: the consumer is attached, and gets word of what there is. -/
theorem Unvisited.exists_subscribe (h : s.Unvisited place) (hfree : s.calls n = none)
    {e : Endpoint} {x : Consumer} (ha : (Move.start n (.subscribe e x)).Placed place)
    (haddress : s.registry.address e = .ok (k, p)) :
    ∃ t, s.Alone n (.subscribe e x) t ∧
      s.Visited place k (joined (s.consumers k) x) (s.firstWord k (place k) x) t := by
  obtain ⟨_, rfl⟩ := h.orderly.grounded.address_spec ha haddress
  obtain ⟨u, v, hgo, ⟨rfl, hpath, rfl⟩, hu, hholds, hmid, hsame⟩ :=
    h.admitted hfree (.inl rfl) k x
  obtain ⟨l, u₂, rfl, hu₂, hmid₂, hcons₂⟩ := hmid.enter hu hholds
  obtain ⟨u₃, hgo₃, hu₃, hmid₃, hcons₃⟩ := hmid₂.watch hu₂
  have hafter : ∀ j, u₃.consumers j =
      if j = v.key then joined (s.consumers v.key) v.consumer else s.consumers j := by
    intro j
    rw [hcons₃, hcons₂, hsame, hsame]
  have hmem : v.consumer ∈ u₃.consumers v.key := by
    rw [hafter, if_pos rfl]
    unfold joined
    split
    · next hin => exact List.contains_iff_mem.1 hin
    · exact List.mem_append_right _ (List.mem_singleton.2 rfl)
  obtain ⟨i, t, hrun, hcalls, hclaims, hserver, hheard, hcons⟩ :=
    Closes.of_step hgo (.of_step hgo₃ (hmid₃.read hu₃ hfree hmem))
  have halone : s.Alone n (.subscribe e v.consumer) t := by
    refine ⟨i, ?_, hcalls ▸ hfree⟩
    rw [run_cons, step_start hfree, Nodes.start_subscribe _ _ haddress]
    exact hrun
  rw [hpath] at hheard
  exact ⟨t, halone, h.visited ha halone hserver hcalls hclaims
    (fun j => (hcons j).trans (hafter j)) hheard⟩

theorem letIn_enterOut (s : Interplay) (n : Nat) (v : Visit) :
    (∃ m, s.letIn n (.enterOut v) = (s.detached v).leave n v m) ∨
      ∃ core l, core.locks = s.core.locks ∧
        s.letIn n (.enterOut v) =
          s.take n (Nodes.goOn { s.registry with core } (.unwatch v l)) := by
  unfold letIn Nodes.admitted Core.forgetListener
  dsimp only
  split
  · exact .inl ⟨_, rfl⟩
  · cases (s.registry.core.detach v).listeners.get? v.key with
    | none => exact .inl ⟨_, rfl⟩
    | some i =>
      refine .inr ⟨{ s.core.detach v with listeners := s.core.listeners.erase v.key }, ?_⟩
      exact ⟨s.core.listener v.key i, rfl, rfl⟩

theorem bare_unwatch (s : Interplay) (v : Visit) (l : Listener) :
    (s.unwatch v l).server.bare = s.server.bare := by
  show Tree.Server.bare { s.server with tree := s.server.tree.unwatch _ _ } = _
  unfold Tree.Server.bare
  dsimp only
  rw [Tree.bare_unwatch]

/-- The consumer is detached.  If it was the last one, the watch is taken down. -/
theorem Midway.enterOut (h : s.Midway n v (.enterOut v) u) (hu : u.Orderly place)
    (hfree : s.calls n = none) (hholds : u.core.locks.holds v.ticket = true) :
    s.Closes (u.letIn n (.enterOut v)) n (u.detached v).consumers [] := by
  have hout := hu.enterOut h.call hholds
  have hcons : (u.letIn n (.enterOut v)).consumers = (u.detached v).consumers :=
    funext (consumers_enterOut u n v)
  rcases u.letIn_enterOut n v with ⟨m, hover⟩ | ⟨core, l, hlocks, hlast⟩
  · obtain ⟨hcalls, hclaims, hserver, hheard⟩ := h.closes (w := u.detached v) (m := m) hu.locks
      hfree rfl rfl rfl (List.append_nil _).symm
    rw [hover]
    exact ⟨0, _, rfl, hcalls, hclaims, hserver, hheard, fun _ => rfl⟩
  · rw [← hcons]
    rw [hlast] at hout ⊢
    have hnext := h.next (t := u.take n (Nodes.goOn { u.registry with core } (.unwatch v l)))
      rfl rfl rfl hlocks
    have hcloses := hnext.closes_of_step hout.locks hfree (hout.grounded.go_unwatch n v l) rfl rfl
      (bare_unwatch _ _ _) (List.append_nil _).symm
    exact hcloses

/-- **A whole call to unsubscribe**: the consumer is detached, and nobody is told anything. -/
theorem Unvisited.exists_unsubscribe (h : s.Unvisited place) (hfree : s.calls n = none)
    {e : Endpoint} {x : Consumer} (ha : (Move.start n (.unsubscribe e x)).Placed place)
    (haddress : s.registry.address e = .ok (k, p)) :
    ∃ t, s.Alone n (.unsubscribe e x) t ∧
      s.Visited place k ((s.consumers k).filter (· != x)) [] t := by
  obtain ⟨_, rfl⟩ := h.orderly.grounded.address_spec ha haddress
  obtain ⟨u, v, hgo, ⟨rfl, hpath, rfl⟩, hu, hholds, hmid, hsame⟩ :=
    h.admitted hfree (.inr rfl) k x
  obtain ⟨i, t, hrun, hcalls, hclaims, hserver, hheard, hcons⟩ :=
    Closes.of_step hgo (hmid.enterOut hu hfree hholds)
  have halone : s.Alone n (.unsubscribe e v.consumer) t := by
    refine ⟨i, ?_, hcalls ▸ hfree⟩
    rw [run_cons, step_start hfree, Nodes.start_unsubscribe _ _ haddress]
    exact hrun
  refine ⟨t, halone, h.visited ha halone hserver hcalls hclaims (fun j => ?_) hheard⟩
  rw [hcons, consumers_detached, hsame, hsame]

/-- The consumers of a key after a call on it, by those before. -/
def joinedBy (cs : List Consumer) : Action → List Consumer
  | .subscribe _ x => joined cs x
  | .unsubscribe _ x => cs.filter (· != x)
  | _ => cs

def wordOf (s : Interplay) (k p : String) : Action → List Notice
  | .subscribe _ x => s.firstWord k p x
  | _ => []

/-- **What a whole call on a key comes to.** -/
theorem Unvisited.exists_visit (h : s.Unvisited place) (hfree : s.calls n = none)
    (hon : a.onKey = true) (ha : (Move.start n a).Placed place)
    (haddress : s.registry.address a.endpoint = .ok (k, p)) :
    ∃ t, s.Alone n a t ∧
      s.Visited place k (joinedBy (s.consumers k) a) (s.wordOf k (place k) a) t := by
  cases a with
  | subscribe e x => exact h.exists_subscribe hfree ha haddress
  | unsubscribe e x => exact h.exists_unsubscribe hfree ha haddress
  | register | unregister => exact nomatch hon

/-! ### A call that is not on a key -/

theorem Unvisited.go (h : s.Unvisited place) (hc : s.calls n = some c) :
    (s.go n c).Unvisited place :=
  h.beside (beside_go hc (h.plain n c hc))

theorem Unvisited.start_plain (h : s.Unvisited place) (hfree : s.calls n = none)
    (ha : a.onKey = true → ∀ x, s.registry.address a.endpoint ≠ .ok x) :
    (s.take n (s.registry.start a)).Unvisited place :=
  h.beside (s.beside_refl.take (Nodes.plain_start s.registry ha)
    fun _ hc => nomatch hfree.symm.trans hc)

theorem Unvisited.exists_over (h : s.Unvisited place) (left : Nat)
    (hleft : ∀ c, s.calls n = some c → c.stepsLeft ≤ left) :
    ∃ i t, s.run (List.replicate i (.go n)) = some t ∧ t.calls n = none := by
  induction left generalizing s with
  | zero =>
    cases hc : s.calls n with
    | none => exact ⟨0, s, rfl, hc⟩
    | some c =>
      have hpos : 0 < c.stepsLeft := by cases c <;> exact Nat.succ_pos _
      exact absurd (hleft c hc) (Nat.not_le_of_lt hpos)
  | succ left ih =>
    cases hc : s.calls n with
    | none => exact ⟨0, s, rfl, hc⟩
    | some c =>
      obtain ⟨q, hneed, _⟩ := Nodes.need_of_plain (h.plain n c hc)
      obtain ⟨i, t, hrun, hover⟩ := ih (h.go hc) fun d hd => by
        rw [go_ask hneed] at hd
        have hcall := (Function.update_self n _ _).symm.trans hd
        have hfits : c.Fits (.answered (s.ask s.registry.session q).2) := ⟨q, hneed⟩
        have hlt := Nodes.stepsLeft_resume hfits hcall
        exact Nat.le_of_lt_succ (Nat.lt_of_lt_of_le hlt (hleft c hc))
      refine ⟨i + 1, t, ?_, hover⟩
      rw [List.replicate_succ, run_cons, step_go hc]
      exact hrun

/-- **A call that runs alone while nobody is on a key comes to its end.** -/
theorem Unvisited.exists_alone (h : s.Unvisited place) (hfree : s.calls n = none)
    (ha : (Move.start n a).Placed place) : ∃ t, s.Alone n a t := by
  by_cases hkey : a.onKey = true ∧ ∃ x, s.registry.address a.endpoint = .ok x
  · obtain ⟨hon, ⟨k, p⟩, haddress⟩ := hkey
    obtain ⟨t, ht, _⟩ := h.exists_visit hfree hon ha haddress
    exact ⟨t, ht⟩
  · have hbegun := h.start_plain hfree fun hon x hx => hkey ⟨hon, x, hx⟩
    obtain ⟨left, hleft⟩ : ∃ left, ∀ c,
        (s.take n (s.registry.start a)).calls n = some c → c.stepsLeft ≤ left := by
      cases hc : (s.take n (s.registry.start a)).calls n with
      | none => exact ⟨0, nofun⟩
      | some c => exact ⟨c.stepsLeft, fun d hd => Option.some.inj hd ▸ Nat.le_refl _⟩
    obtain ⟨i, t, hrun, hover⟩ := hbegun.exists_over left hleft
    refine ⟨t, i, ?_, hover⟩
    rw [run_cons, step_start hfree]
    exact hrun

end Interplay

end Discovery.Registry
