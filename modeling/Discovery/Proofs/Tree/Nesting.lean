import Discovery.Proofs.Tree.History
import Discovery.Proofs.Tree.Ledger

/-!
# Calls within calls

Whoever changes the tree waits until the calls for it are made.  So if a listener acts while it is
called, the calls for that come before those that are owed from before, and whoever is still owed a
call is told of the later change first.

* `settles_act`: an act leaves a path with what it does there, or as it was.
* `Turn`, `turns`: somebody acts, or the call that is owed first is made.
* `line_turns`: calls never change places with each other.
* `owedAt_iff`: a later call comes first if and only if the earlier one is still owed by then.
* `heard_of_turns`: in which order a listener is told of the changes at a path, and whether the last
  thing that it was told holds still.
-/

namespace Discovery.Tree

/-- The data at a path after an event. -/
def Event.data? : Event → Option Bytes
  | .changed _ data => some data
  | .deleted _ => none

variable {t t' : Tree} {p : String} {s : SessionId} {data : Bytes} {mode : Mode}
  {ds : List Delivery}

theorem data?_create (h : t.create s p data mode = .ok (t', ds)) (q : String) :
    t'.data? q = if q = p then some data else t.data? q := by
  obtain ⟨_, _, _, rfl, _⟩ := create_eq_ok_iff.1 h
  simp only [data?, Table.get?_insert]
  split <;> rfl

theorem data?_delete (h : t.delete p = .ok (t', ds)) (q : String) :
    t'.data? q = if q = p then none else t.data? q := by
  obtain ⟨_, _, _, rfl, _⟩ := delete_eq_ok_iff.1 h
  simp only [data?, Table.get?_erase]
  split <;> rfl

theorem data?_write (h : t.write p data = .ok (t', ds)) (q : String) :
    t'.data? q = if q = p then some data else t.data? q := by
  obtain ⟨_, _, rfl, _⟩ := write_eq_ok_iff.1 h
  simp only [data?, Table.get?_insert]
  split <;> rfl

namespace Server

variable {v : Server} {a : Act} {e e' : Event}

/-! ### What acts make of a path -/

theorem does_unique (h : v.Does a e) (h' : v.Does a e') (hp : e.path = e'.path) : e = e' := by
  cases h <;> cases h' <;> first | rfl | exact congrArg _ hp

/-- An act leaves a path with what it does there, or it does nothing there. -/
def Settles (v : Server) (a : Act) (p : String) : Prop :=
  (∃ e, v.Does a e ∧ e.path = p ∧ (v.act a).1.tree.data? p = e.data?) ∨
    (∀ e, v.Does a e → e.path ≠ p) ∧ (v.act a).1.tree.data? p = v.tree.data? p

theorem settles_of_none (hnone : ∀ e, ¬ v.Does a e)
    (hsame : (v.act a).1.tree.nodes = v.tree.nodes) : v.Settles a p := by
  refine .inr ⟨fun e he => absurd he (hnone e), ?_⟩
  unfold data?
  rw [hsame]

/-- A change that is done leaves its path with what it does, and one that fails does nothing. -/
theorem settles_of_change {r : Except Failure (Tree × List Delivery)}
    (hact : (v.act a).1 = (v.commit r).1)
    (hdoes : ∀ e', v.Does a e' ↔ e' = e ∧ (v.commit r).2.1 = .done)
    (hdata : ∀ t ds, r = .ok (t, ds) →
      ∀ q, t.data? q = if q = e.path then e.data? else v.tree.data? q) : v.Settles a p := by
  cases hr : r with
  | error why =>
    subst hr
    exact settles_of_none (fun e' he => nomatch ((hdoes e').1 he).2) (by rw [hact]; rfl)
  | ok x =>
    subst hr
    have hp : (v.act a).1.tree.data? p = if p = e.path then e.data? else v.tree.data? p := by
      rw [hact]
      exact hdata x.1 x.2 rfl p
    by_cases hpath : p = e.path
    · exact .inl ⟨e, (hdoes e).2 ⟨rfl, rfl⟩, hpath.symm, by rw [hp, if_pos hpath]⟩
    · refine .inr ⟨fun e' he => ?_, by rw [hp, if_neg hpath]⟩
      rw [((hdoes e').1 he).1]
      exact Ne.symm hpath

theorem settles_close (h : v.tree.Holds) (s : SessionId) (p : String) :
    v.Settles (.close s) p := by
  have hgone := does_close_iff (s := s) (p := p) h
  by_cases hdoes : v.Does (.close s) (.deleted p)
  · exact .inl ⟨.deleted p, hdoes, rfl, (hgone.1 hdoes).2⟩
  · refine .inr ⟨?_, ?_⟩
    · rintro e he rfl
      cases he with
      | ended hopen there owner => exact hdoes (.ended hopen there owner)
    · -- nothing but nodes that go can change with a session that ends
      have hless : (v.close s).1.tree.data? p = v.tree.data? p ∨
          (v.close s).1.tree.data? p = none := by
        unfold close
        split
        · exact .inl rfl
        · exact (lost_deleteAll (v.tree.owned s) (v.tree.dropWatches s)).1 p
      rcases hless with hsame | hnone
      · exact hsame
      · by_contra hne
        exact hdoes (hgone.2 ⟨fun hbefore => hne (hnone.trans hbefore.symm), hnone⟩)

theorem settles_request (v : Server) (s : SessionId) (q : Request) (p : String) :
    v.Settles (.request s q) p := by
  cases hc : v.isClosed s with
  | true =>
    have hrefused : v.answer s q = (v, .failed .sessionClosed, []) := by simp [answer, hc]
    refine settles_of_none (fun e he => ?_) (congrArg (·.1.tree.nodes) hrefused)
    cases he with
    | created done | written done | deleted done => rw [hrefused] at done; cases done
  | false =>
    have hperform := answer_of_open hc q
    have hreply : (v.answer s q).2.1 = (v.perform s q).2.1 := congrArg (·.2.1) hperform
    cases q with
    | create q data mode =>
      refine settles_of_change (e := .changed q data) (r := v.tree.create s q data mode)
        (congrArg Prod.fst hperform) (fun e' => ⟨fun he => ?_, fun he => ?_⟩)
        fun t ds hc => data?_create hc
      · cases he with
        | created done => exact ⟨rfl, hreply.symm.trans done⟩
      · rw [he.1]
        exact .created (hreply.trans he.2)
    | write q data =>
      refine settles_of_change (e := .changed q data) (r := v.tree.write q data)
        (congrArg Prod.fst hperform) (fun e' => ⟨fun he => ?_, fun he => ?_⟩)
        fun t ds hw => data?_write hw
      · cases he with
        | written done => exact ⟨rfl, hreply.symm.trans done⟩
      · rw [he.1]
        exact .written (hreply.trans he.2)
    | delete q =>
      refine settles_of_change (e := .deleted q) (r := v.tree.delete q)
        (congrArg Prod.fst hperform) (fun e' => ⟨fun he => ?_, fun he => ?_⟩)
        fun t ds hd => data?_delete hd
      · cases he with
        | deleted done => exact ⟨rfl, hreply.symm.trans done⟩
      · rw [he.1]
        exact .deleted (hreply.trans he.2)
    | check q | read q =>
      exact settles_of_none (fun e he => by cases he) (congrArg (·.1.tree.nodes) hperform)
    | watch q l =>
      exact settles_of_none (fun e he => by cases he)
        ((congrArg (·.1.tree.nodes) hperform).trans (nodes_watch v.tree s q l))
    | unwatch q l =>
      exact settles_of_none (fun e he => by cases he)
        ((congrArg (·.1.tree.nodes) hperform).trans (nodes_unwatch v.tree q l))

/-- **An act leaves a path with what it does there**, and otherwise as it was. -/
theorem settles_act (h : v.tree.Holds) (a : Act) (p : String) : v.Settles a p := by
  cases a with
  | connect | clearHistory => exact settles_of_none (fun e he => by cases he) rfl
  | close s => exact settles_close h s p
  | write q data =>
    refine settles_of_change (e := .changed q data) (r := v.tree.write q data) rfl
      (fun e' => ⟨fun he => ?_, fun he => ?_⟩) fun t ds hw => data?_write hw
    · cases he with
      | writtenByServer done => exact ⟨rfl, done⟩
    · rw [he.1]
      exact .writtenByServer he.2
  | request s q => exact settles_request v s q p

namespace Ledger

variable {k : Ledger} {i j : Nat} {l : Listener} {m n : Nat × Delivery}

/-- When nothing is done to a path after some act, what this act did there holds still. -/
theorem data?_of_runs (h : k.Runs) (hact : k.acts[j]? = some (v, a)) (hdoes : v.Does a e)
    (hlater : ∀ i w b, j < i → k.acts[i]? = some (w, b) → ∀ e', w.Does b e' → e'.path ≠ e.path) :
    k.server.tree.data? e.path = e.data? := by
  induction h with
  | refl => exact nomatch hact
  | @tail k k' hruns hn ih =>
    cases hn with
    | call owed => exact ih hact hlater
    | act b =>
      have hsettles := settles_act (Runs.holds hruns).now b e.path
      rcases Nat.lt_trichotomy j k.acts.length with hlt | rfl | hgt
      · -- the act is an earlier one, and this one does nothing to the path
        have hbefore : k.server.tree.data? e.path = e.data? := by
          refine ih ?_ fun i w b hi hact' => ?_
          · rwa [← List.getElem?_append_left hlt]
          · refine hlater i w b hi ?_
            have hi' : i < k.acts.length := (List.getElem?_eq_some_iff.1 hact').1
            exact (List.getElem?_append_left hi').trans hact'
        have hquiet := hlater _ _ _ hlt (List.getElem?_concat_length ..)
        rcases hsettles with ⟨e', he', hp, _⟩ | ⟨_, hsame⟩
        · exact absurd hp (hquiet e' he')
        · exact hsame.trans hbefore
      · change (k.acts ++ [(k.server, b)])[k.acts.length]? = _ at hact
        rw [List.getElem?_concat_length] at hact
        cases hact
        rcases hsettles with ⟨e', he', hp, hdata⟩ | ⟨hnone, _⟩
        · rwa [does_unique he' hdoes hp] at hdata
        · exact absurd rfl (hnone e hdoes)
      · have hlen : (k.acts ++ [(k.server, b)]).length ≤ j := by
          rw [List.length_append]
          exact hgt
        exact nomatch (List.getElem?_eq_none hlen).symm.trans hact

/-! ### Who is called first -/

def callFirst (k : Ledger) : Ledger :=
  match k.owed with
  | [] => k
  | m :: _ => k.call m

theorem callFirst_eq (k : Ledger) : k.callFirst = k ∨
    ∃ m ms, k.owed = m :: ms ∧ k.callFirst = k.call m ∧
      k.callFirst = { k with owed := ms, made := k.made ++ [m] } := by
  cases howed : k.owed with
  | nil => exact .inl (by simp [callFirst, howed])
  | cons m ms =>
    exact .inr ⟨m, ms, rfl, by simp [callFirst, howed], by simp [callFirst, call, howed]⟩

@[simp]
theorem acts_callFirst (k : Ledger) : k.callFirst.acts = k.acts := by
  rcases callFirst_eq k with h | ⟨_, _, _, _, h⟩ <;> rw [h]

/-- **Somebody acts, or the call that is owed first is made.** -/
inductive Turn
  | act (a : Act)
  | call

def turn (k : Ledger) : Turn → Ledger
  | .act a => k.act a
  | .call => k.callFirst

/-- What comes of a server while acts and calls follow each other.  Whoever acts has to wait until
the calls for it are made, and so the calls that were owed before come after them. -/
def turns (k : Ledger) (ts : List Turn) : Ledger :=
  ts.foldl turn k

variable {ts before after : List Turn}

theorem turns_append (k : Ledger) (ts ts' : List Turn) :
    k.turns (ts ++ ts') = (k.turns ts).turns ts' :=
  List.foldl_append

theorem runs_turn (h : k.Runs) (t : Turn) : (k.turn t).Runs := by
  cases t with
  | act a => exact h.tail (.act a)
  | call =>
    show k.callFirst.Runs
    rcases callFirst_eq k with he | ⟨m, ms, howed, he, _⟩
    · rwa [he]
    · rw [he]
      exact h.tail (.call (howed ▸ List.mem_cons_self))

theorem runs_turns (h : k.Runs) (ts : List Turn) : (k.turns ts).Runs := by
  induction ts generalizing k with
  | nil => exact h
  | cons t ts ih => exact ih (runs_turn h t)

/-- **Calls never change places.**  Those for a new act come in between what was made and what is
owed. -/
theorem line_turn (k : Ledger) (t : Turn) : k.line.Sublist (k.turn t).line := by
  cases t with
  | act a => exact (List.sublist_append_right _ k.owed).append_left k.made
  | call =>
    show k.line.Sublist k.callFirst.line
    rcases callFirst_eq k with he | ⟨m, ms, howed, _, he⟩
    · rw [he]
    · have hsame : k.line = k.made ++ [m] ++ ms := by
        rw [line, howed, List.append_assoc, List.singleton_append]
      rw [hsame, he]
      exact .refl _

theorem line_turns (k : Ledger) (ts : List Turn) : k.line.Sublist (k.turns ts).line := by
  induction ts generalizing k with
  | nil => exact .refl _
  | cons t ts ih => exact (line_turn k t).trans (ih (k.turn t))

theorem acts_turns (k : Ledger) (ts : List Turn) : k.acts <+: (k.turns ts).acts := by
  induction ts generalizing k with
  | nil => exact List.prefix_rfl
  | cons t ts ih =>
    refine List.IsPrefix.trans ?_ (ih (k.turn t))
    cases t with
    | act a => exact List.prefix_append k.acts [(k.server, a)]
    | call => exact acts_callFirst k ▸ List.prefix_rfl

theorem exists_turn (ts : List Turn) (hj : j < (blank.turns ts).acts.length) :
    ∃ before a after, ts = before ++ .act a :: after ∧
      (blank.turns before).acts.length = j := by
  induction ts using List.reverseRecOn with
  | nil => exact nomatch hj
  | append_singleton ts t ih =>
    by_cases hlt : j < (blank.turns ts).acts.length
    · obtain ⟨before, a, after, rfl, hlen⟩ := ih hlt
      exact ⟨before, a, after ++ [t], by simp, hlen⟩
    · rw [turns_append] at hj
      cases t with
      | act a =>
        change j < ((blank.turns ts).acts ++ [((blank.turns ts).server, a)]).length at hj
        rw [List.length_append, List.length_singleton] at hj
        exact ⟨ts, a, [], rfl, by omega⟩
      | call =>
        change j < (blank.turns ts).callFirst.acts.length at hj
        rw [acts_callFirst] at hj
        exact absurd hj hlt

/-- **A call is still owed** when some act is done. -/
def OwedAt (ts : List Turn) (j : Nat) (m : Nat × Delivery) : Prop :=
  ∃ before a after, ts = before ++ .act a :: after ∧ (blank.turns before).acts.length = j ∧
    m ∈ (blank.turns before).owed

theorem lt_of_mem_line (h : k.Runs) (hm : m ∈ k.line) : m.1 < k.acts.length := by
  obtain ⟨v, a, hact, _⟩ := (mem_line_iff h).1 hm
  exact (List.getElem?_eq_some_iff.1 hact).1

theorem OwedAt.lt (h : OwedAt ts j m) : m.1 < j := by
  obtain ⟨before, a, after, rfl, rfl, howed⟩ := h
  exact lt_of_mem_line (runs_turns .refl before) (List.mem_append_right _ howed)

/-- A call that is in the line at the end is in it as soon as its act is done. -/
theorem mem_line_of_turns (hm : m ∈ (k.turns ts).line) (h : k.Runs) (hlt : m.1 < k.acts.length) :
    m ∈ k.line := by
  obtain ⟨v, a, hact, howes⟩ := (mem_line_iff (runs_turns h ts)).1 hm
  refine (mem_line_iff h).2 ⟨v, a, ?_, howes⟩
  obtain ⟨rest, hrest⟩ := acts_turns k ts
  rw [← hact, ← hrest, List.getElem?_append_left hlt]

theorem not_sublist_swap {xs : List (Nat × Delivery)} (hnd : xs.Nodup) (h : [m, n].Sublist xs) :
    ¬ [n, m].Sublist xs := by
  induction xs with
  | nil => exact nomatch h
  | cons x xs ih =>
    intro hswap
    obtain ⟨hx, hnd⟩ := List.nodup_cons.1 hnd
    cases h with
    | cons _ h =>
      cases hswap with
      | cons _ hswap => exact ih hnd h hswap
      | cons_cons _ _ => exact hx (h.subset (by simp))
    | cons_cons _ h =>
      cases hswap with
      | cons _ hswap => exact hx (hswap.subset (by simp))
      | cons_cons _ _ => exact hx (h.subset (by simp))

/-- **Where the calls for an act come in**: behind those that are made by then, and before those
that are still owed. -/
theorem order_of_act (hts : ts = before ++ .act a :: after)
    (hnow : (blank.turns before).acts.length = m.1) (hm : m ∈ (blank.turns ts).line) :
    (n ∈ (blank.turns before).made → [n, m].Sublist (blank.turns ts).line) ∧
      (n ∈ (blank.turns before).owed → [m, n].Sublist (blank.turns ts).line) := by
  have hruns := runs_turns .refl before
  have hturns : blank.turns ts = ((blank.turns before).act a).turns after := by
    rw [hts, turns_append]
    rfl
  rw [hturns] at hm ⊢
  have hlater := line_turns ((blank.turns before).act a) after
  have hold : m ∉ (blank.turns before).line := fun hold =>
    Nat.ne_of_lt (lt_of_mem_line hruns hold) hnow.symm
  have hnow : m ∈ ((blank.turns before).act a).line := by
    refine mem_line_of_turns hm (hruns.tail (.act a)) ?_
    show m.1 < ((blank.turns before).acts ++ [(_, a)]).length
    rw [List.length_append, hnow]
    exact Nat.lt_succ_self _
  generalize blank.turns before = k at *
  change m ∈ k.made ++ (_ ++ k.owed) at hnow
  rw [line, List.mem_append, not_or] at hold
  have hnew := (List.mem_append.1 hnow).resolve_left hold.1
  have hnew := List.singleton_sublist.2 ((List.mem_append.1 hnew).resolve_right hold.2)
  constructor
  · intro hn
    refine .trans ?_ hlater
    exact (List.singleton_sublist.2 hn).append (hnew.trans (List.sublist_append_left _ _))
  · intro hn
    refine .trans ?_ hlater
    exact (hnew.append (List.singleton_sublist.2 hn)).trans (List.sublist_append_right _ _)

/-- **A later call comes first if and only if the earlier one is still owed** when the act for the
later one is done. -/
theorem owedAt_iff (hm : m ∈ (blank.turns ts).line) (hn : n ∈ (blank.turns ts).line)
    (hlt : n.1 < m.1) : OwedAt ts m.1 n ↔ [m, n].Sublist (blank.turns ts).line := by
  have hruns := runs_turns .refl ts
  constructor
  · rintro ⟨before, a, after, hts, hnow, howed⟩
    exact (order_of_act hts hnow hm).2 howed
  · intro hfirst
    obtain ⟨before, a, after, hts, hnow⟩ := exists_turn ts (lt_of_mem_line hruns hm)
    refine ⟨before, a, after, hts, hnow, ?_⟩
    have hold : n ∈ (blank.turns before).line := by
      rw [hts, turns_append] at hn
      exact mem_line_of_turns hn (runs_turns .refl before) (hnow ▸ hlt)
    refine (List.mem_append.1 hold).resolve_left fun hmade => ?_
    exact not_sublist_swap (nodup_line hruns) hfirst ((order_of_act hts hnow hm).1 hmade)

/-! ### What a listener is told of a path -/

/-- The calls by which a listener was told of what was done to a path, in the order in which they
were made. -/
def heard (k : Ledger) (l : Listener) (p : String) : List (Nat × Delivery) :=
  k.made.filter fun m => m.2.listener = l ∧ m.2.event.path = p

theorem mem_heard_iff : m ∈ k.heard l p ↔
    m ∈ k.made ∧ m.2.listener = l ∧ m.2.event.path = p := by
  simp [heard]

/-- **In which order**: by the number of the act, unless the call for the earlier one was still owed
when the later one was done. -/
def Precedes (ts : List Turn) (m n : Nat × Delivery) : Prop :=
  m.1 < n.1 ∧ ¬ OwedAt ts n.1 m ∨ n.1 < m.1 ∧ OwedAt ts m.1 n

theorem eq_of_mem_line (h : k.Runs) (hm : m ∈ k.line) (hn : n ∈ k.line) (hact : m.1 = n.1)
    (hlistener : m.2.listener = n.2.listener) (hpath : m.2.event.path = n.2.event.path) :
    m = n := by
  obtain ⟨v, a, hm, howes⟩ := (mem_line_iff h).1 hm
  obtain ⟨w, b, hn, howes'⟩ := (mem_line_iff h).1 hn
  rw [← hact, hm] at hn
  cases hn
  have hevent := does_unique howes.1 howes'.1 hpath
  exact Prod.ext hact (by rw [Delivery.mk.injEq]; exact ⟨hlistener, hevent⟩)

theorem pairwise_heard (ts : List Turn) (l : Listener) (p : String) :
    ((blank.turns ts).heard l p).Pairwise (Precedes ts) := by
  have hruns := runs_turns .refl ts
  have hnd := nodup_line hruns
  have hsub : ((blank.turns ts).heard l p).Sublist (blank.turns ts).line :=
    List.filter_sublist.trans (List.sublist_append_left _ _)
  refine List.pairwise_iff_forall_sublist.2 fun {m n} hmn => ?_
  have hmn' := hmn.trans hsub
  have hm := hmn'.subset (List.mem_cons_self : m ∈ [m, n])
  have hn := hmn'.subset (List.mem_cons_of_mem m List.mem_cons_self)
  rcases Nat.lt_trichotomy m.1 n.1 with hlt | heq | hgt
  · refine .inl ⟨hlt, fun howed => ?_⟩
    exact not_sublist_swap hnd hmn' ((owedAt_iff hn hm hlt).1 howed)
  · obtain ⟨_, hl, hp⟩ := mem_heard_iff.1 (hmn.subset (List.mem_cons_self : m ∈ [m, n]))
    obtain ⟨_, hl', hp'⟩ := mem_heard_iff.1 (hmn.subset (List.mem_cons_of_mem m List.mem_cons_self))
    have hsame := eq_of_mem_line hruns hm hn heq (hl.trans hl'.symm) (hp.trans hp'.symm)
    rw [← hsame] at hmn'
    exact absurd hmn' (List.nodup_iff_sublist.1 hnd m)
  · exact .inr ⟨hgt, (owedAt_iff hm hn hgt).2 hmn'⟩

theorem Precedes.irrefl : ¬ Precedes ts m m := by
  rintro (⟨h, _⟩ | ⟨h, _⟩) <;> exact absurd h (Nat.lt_irrefl _)

/-- **Who is told last of the last change**: whoever is owed nothing when it is made. -/
theorem getLast?_heard_iff (hm : m ∈ (blank.turns ts).heard l p)
    (hlast : ∀ n ∈ (blank.turns ts).heard l p, n.1 ≤ m.1) :
    ((blank.turns ts).heard l p).getLast? = some m ↔
      ∀ n ∈ (blank.turns ts).heard l p, ¬ OwedAt ts m.1 n := by
  have horder := pairwise_heard ts l p
  obtain ⟨before, after, hsplit⟩ := List.append_of_mem hm
  rw [hsplit] at horder hlast ⊢
  obtain ⟨_, hbehind, hbefore⟩ := List.pairwise_append.1 horder
  have hafter := (List.pairwise_cons.1 hbehind).1
  constructor
  · intro hlast' n hn howed
    have hnil : after = [] := by
      by_contra hne
      rw [List.getLast?_append_cons, List.getLast?_cons_of_ne_nil hne] at hlast'
      exact (hafter m (List.mem_of_getLast? hlast')).irrefl
    rw [hnil] at hn
    rcases List.mem_append.1 hn with hn | hn
    · rcases hbefore n hn m List.mem_cons_self with ⟨_, hnot⟩ | ⟨hlt, _⟩
      · exact hnot howed
      · exact Nat.lt_asymm hlt howed.lt
    · rw [List.mem_singleton.1 hn] at howed
      exact Nat.lt_irrefl _ howed.lt
  · intro hnone
    have hnil : after = [] := by
      refine List.eq_nil_iff_forall_not_mem.2 fun n hn => ?_
      have hn' : n ∈ before ++ m :: after := List.mem_append_right _ (List.mem_cons_of_mem m hn)
      rcases hafter n hn with ⟨hlt, _⟩ | ⟨_, howed⟩
      · exact Nat.not_lt.2 (hlast n hn') hlt
      · exact hnone n hn' howed
    rw [hnil, List.getLast?_concat]

/-- **What a listener is told of a path, and in which order.**  When no call is owed any longer, a
listener was told, once each, of what was done to a path that it watched then.  It was told of it in
the order in which the history has it, unless a change was made while the call for an earlier one
was still owed to it: of the later one it was told first.  So when the last change of a path was
made and the listener watched the path, the data is what the listener was told last, if and only if
nothing was owed to it then. -/
theorem heard_of_turns (hend : (blank.turns ts).owed = []) (l : Listener) (p : String) :
    (∀ i e, (i, ⟨l, e⟩) ∈ (blank.turns ts).heard l p ↔ e.path = p ∧
      ∃ v a, (blank.turns ts).acts[i]? = some (v, a) ∧ v.Owes a ⟨l, e⟩) ∧
    ((blank.turns ts).heard l p).Pairwise (Precedes ts) ∧
    (∀ i v a e, (blank.turns ts).acts[i]? = some (v, a) → v.Owes a ⟨l, e⟩ → e.path = p →
      (∀ j w b, i < j → (blank.turns ts).acts[j]? = some (w, b) →
        ∀ e', w.Does b e' → e'.path ≠ p) →
      (blank.turns ts).server.tree.data? p = e.data? ∧
      (((blank.turns ts).heard l p).getLast? = some (i, ⟨l, e⟩) ↔
        ∀ m ∈ (blank.turns ts).heard l p, ¬ OwedAt ts i m)) ∧
    ((∀ x ∈ (blank.turns ts).acts, x.2 ≠ .clearHistory) →
      (blank.turns ts).server.tree.history =
        (blank.turns ts).acts.flatMap fun x => x.1.records x.2) := by
  have hruns := runs_turns .refl ts
  have hline : (blank.turns ts).line = (blank.turns ts).made := by
    rw [line, hend, List.append_nil]
  have hheard : ∀ i e, (i, ⟨l, e⟩) ∈ (blank.turns ts).heard l p ↔ e.path = p ∧
      ∃ v a, (blank.turns ts).acts[i]? = some (v, a) ∧ v.Owes a ⟨l, e⟩ := by
    intro i e
    rw [mem_heard_iff, ← hline, mem_line_iff hruns, and_comm]
    simp only [true_and]
  refine ⟨hheard, pairwise_heard ts l p, ?_, fun hkept => ?_⟩
  · rintro i v a e hact howes rfl hlater
    refine ⟨data?_of_runs hruns hact howes.1 hlater, getLast?_heard_iff ?_ ?_⟩
    · exact (hheard i e).2 ⟨rfl, v, a, hact, howes⟩
    · intro n hn
      obtain ⟨hmade, _, hp⟩ := mem_heard_iff.1 hn
      obtain ⟨w, b, hact', howes'⟩ := (mem_line_iff hruns).1 (hline ▸ hmade)
      by_contra hlt
      exact hlater n.1 w b (Nat.not_le.1 hlt) hact' n.2.event howes'.1 hp
  · exact (logs_of_runs hruns hkept).1.trans (List.nil_append _)

/-- Two listeners watch a path where a node is created, and the one that is called first writes to
the node while it is called. -/
def nested : List Turn :=
  [.act .connect, .act (.request 1 (.watch "/a" (.named "l"))),
    .act (.request 1 (.watch "/a" (.named "m"))), .act (.request 1 (.create "/a" [1] .persistent)),
    .call, .act (.write "/a" [2]), .call, .call, .call]

theorem heard_of_nested : (blank.turns nested).owed = [] ∧
    OwedAt nested 4 (3, ⟨.named "m", .changed "/a" [1]⟩) ∧
    (∀ i e, (i, ⟨.named "m", e⟩) ∈ (blank.turns nested).heard (.named "m") "/a" ↔ e.path = "/a" ∧
      ∃ v a, (blank.turns nested).acts[i]? = some (v, a) ∧ v.Owes a ⟨.named "m", e⟩) ∧
    ((blank.turns nested).heard (.named "m") "/a").Pairwise (Precedes nested) ∧
    (∀ i v a e, (blank.turns nested).acts[i]? = some (v, a) → v.Owes a ⟨.named "m", e⟩ →
      e.path = "/a" →
      (∀ j w b, i < j → (blank.turns nested).acts[j]? = some (w, b) →
        ∀ e', w.Does b e' → e'.path ≠ "/a") →
      (blank.turns nested).server.tree.data? "/a" = e.data? ∧
      (((blank.turns nested).heard (.named "m") "/a").getLast? = some (i, ⟨.named "m", e⟩) ↔
        ∀ m ∈ (blank.turns nested).heard (.named "m") "/a", ¬ OwedAt nested i m)) ∧
    ((∀ x ∈ (blank.turns nested).acts, x.2 ≠ .clearHistory) →
      (blank.turns nested).server.tree.history =
        (blank.turns nested).acts.flatMap fun x => x.1.records x.2) := by
  have hend : (blank.turns nested).owed = [] := by decide
  have howed : OwedAt nested 4 (3, ⟨.named "m", .changed "/a" [1]⟩) :=
    ⟨nested.take 5, .write "/a" [2], nested.drop 6, rfl, by decide, by decide⟩
  exact ⟨hend, howed, heard_of_turns hend (.named "m") "/a"⟩

/-- The other one is told of the writing first and of the creation last, and so what it was told
last is not what is there. -/
theorem unordered_of_nested : (blank.turns nested).owed = [] ∧
    (blank.turns nested).server.tree.history = [.created "/a" .persistent, .written "/a"] ∧
    ((blank.turns nested).heard (.named "m") "/a").map (·.2.event) =
      [.changed "/a" [2], .changed "/a" [1]] ∧
    ¬ ((blank.turns nested).heard (.named "m") "/a").Pairwise (·.1 < ·.1) ∧
    ⟨1, .named "m"⟩ ∈ (blank.turns nested).server.tree.watchesAt "/a" ∧
    (blank.turns nested).server.tree.data? "/a" = some [2] := by
  decide

end Ledger

end Server

end Discovery.Tree
