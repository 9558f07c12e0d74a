import Discovery.Proofs.Roster.Snapshot
import Discovery.Proofs.Since

/-!
# Who is attached

By the journal of a scene a consumer is attached to a key from when somebody attached it until
somebody detaches it.  The roster lists the consumers of each key that are attached by the journal,
in the order in which they came, whoever changed it in whatever call.

* `Listed`: the roster goes by the journal.
* `Listed.change`: each change keeps this.
* `untouched_of_changes`: the list of a key stays as it is until somebody attaches a consumer to
  this key or detaches one from it.
* `attached_of_changes`: what may be said of a roster at any time, and of what is asked of it then.
-/

namespace Discovery

/-! ### Lists in the table -/

namespace Roster

variable {r : Roster} {key k : String} {c : Consumer}

theorem get?_attach : (r.attach key c).attached.get? k =
    if k = key then
      some (if (r.consumers key).contains c then r.consumers key else r.consumers key ++ [c])
    else r.attached.get? k :=
  Table.get?_insert ..

/-- A consumer that leaves does not leave an empty list behind. -/
theorem get?_detach_ne (h : ∀ k, r.attached.get? k ≠ some []) :
    (r.detach key c).attached.get? k ≠ some [] := by
  unfold detach
  cases hcs : r.attached.get? key with
  | none => exact h k
  | some cs =>
    dsimp only
    split
    · rw [Table.get?_erase]
      split
      · exact nofun
      · exact h k
    · next hleft =>
      rw [Table.get?_insert]
      split
      · intro hnil
        exact hleft (List.isEmpty_iff.2 (Option.some.inj hnil))
      · exact h k

theorem mem_keys_iff_of_filled (h : ∀ k, r.attached.get? k ≠ some []) :
    key ∈ r.keys ↔ 0 < r.count key := by
  unfold keys count consumers Table.getD
  rw [Table.mem_keys_iff]
  unfold Table.contains
  have hkey := h key
  cases hcs : r.attached.get? key with
  | none => simp
  | some cs =>
    rw [hcs] at hkey
    have hne : cs ≠ [] := fun hnil => hkey (congrArg some hnil)
    simp [List.length_pos_iff, hne]

end Roster

namespace Scene

/-! ### By the journal -/

/-- **A consumer is attached to a key**: somebody attached it, and nobody has detached it since. -/
def IsAttached (key : String) (c : Consumer) (journal : List Entry) : Prop :=
  Since (fun _ e => e = .attached key c) (fun _ e => e ≠ .detached key c) journal

/-- **One consumer of a key came before another**: when the second one was attached that had not
been, the first one was there, and neither has been detached since. -/
def CameBefore (key : String) (c d : Consumer) (journal : List Entry) : Prop :=
  Since
    (fun before e => e = .attached key d ∧ ¬ IsAttached key d before ∧ IsAttached key c before)
    (fun _ e => e ≠ .detached key c ∧ e ≠ .detached key d) journal

/-- **The roster goes by the journal.** -/
structure Listed (s : Scene) : Prop where
  /-- No key is in the table without consumers. -/
  filled : ∀ key, s.roster.attached.get? key ≠ some []
  /-- No key has a consumer twice. -/
  once : ∀ key, (s.roster.consumers key).Nodup
  /-- The consumers of a key are those that are attached to it. -/
  mem_iff : ∀ key c, c ∈ s.roster.consumers key ↔ IsAttached key c s.journal
  /-- They are in the order in which they came. -/
  order : ∀ key, (s.roster.consumers key).Pairwise fun c d => CameBefore key c d s.journal

/-- The key to which an entry attaches a consumer, or from which it detaches one. -/
def Entry.key? : Entry → Option String
  | .attached key _ => some key
  | .detached key _ => some key
  | _ => none

variable {s s' : Scene} {kind key : String} {c d : Consumer} {e : Entry} {journal : List Entry}

theorem isAttached_concat : IsAttached key c (journal ++ [e]) ↔
    e = .attached key c ∨ IsAttached key c journal ∧ e ≠ .detached key c :=
  since_concat

theorem CameBefore.concat (h : CameBefore key c d journal) (hc : e ≠ .detached key c)
    (hd : e ≠ .detached key d) : CameBefore key c d (journal ++ [e]) :=
  Since.concat h ⟨hc, hd⟩

theorem isAttached_concat_of_ne (he : e.key? ≠ some key) :
    IsAttached key c (journal ++ [e]) ↔ IsAttached key c journal := by
  have hattached : e ≠ .attached key c := fun h => he (h ▸ rfl)
  have hdetached : e ≠ .detached key c := fun h => he (h ▸ rfl)
  rw [isAttached_concat]
  exact ⟨fun h => (h.resolve_left hattached).1, fun h => .inr ⟨h, hdetached⟩⟩

theorem Listed.carry (h : s.Listed) (hjournal : s'.journal = s.journal ++ [e])
    (hsame : s'.roster.consumers key = s.roster.consumers key) (he : e.key? ≠ some key) :
    (∀ c, c ∈ s'.roster.consumers key ↔ IsAttached key c s'.journal) ∧
      (s'.roster.consumers key).Pairwise fun c d => CameBefore key c d s'.journal := by
  rw [hjournal, hsame]
  refine ⟨fun c => (h.mem_iff key c).trans (isAttached_concat_of_ne he).symm, ?_⟩
  exact (h.order key).imp fun h => h.concat (fun h => he (h ▸ rfl)) fun h => he (h ▸ rfl)

/-! ### Attaching and detaching -/

theorem consumers_attach (s : Scene) (key k : String) (c : Consumer) :
    (s.attach key c).roster.consumers k =
      if k = key then
        if (s.roster.consumers key).contains c then s.roster.consumers key
        else s.roster.consumers key ++ [c]
      else s.roster.consumers k := by
  show (s.roster.enroll key c).1.consumers k = _
  rw [Roster.enroll_eq, Roster.consumers_attach]

theorem consumers_detach (s : Scene) (key k : String) (c : Consumer) :
    (s.detach key c).roster.consumers k =
      if k = key then (s.roster.consumers key).filter (· != c) else s.roster.consumers k := by
  show (s.roster.dismiss key c).1.consumers k = _
  rw [Roster.dismiss_eq, Roster.consumers_detach]

theorem Listed.attach (h : s.Listed) (key : String) (c : Consumer) : (s.attach key c).Listed := by
  have hat : ∀ k, (∀ d, d ∈ (s.attach key c).roster.consumers k ↔
      IsAttached k d (s.attach key c).journal) ∧
      ((s.attach key c).roster.consumers k).Pairwise
        fun a b => CameBefore k a b (s.attach key c).journal := by
    intro k
    by_cases hk : k = key
    · subst hk
      have hkept : (s.roster.consumers k).Pairwise
          fun a b => CameBefore k a b (s.journal ++ [.attached k c]) :=
        (h.order k).imp fun h => h.concat nofun nofun
      rw [consumers_attach, if_pos rfl]
      constructor
      · intro d
        show _ ↔ IsAttached k d (s.journal ++ [.attached k c])
        rw [isAttached_concat, ← h.mem_iff]
        split
        · next hc =>
          refine ⟨fun hd => .inr ⟨hd, nofun⟩, ?_⟩
          rintro (hd | ⟨hd, -⟩)
          · cases hd
            exact List.contains_iff_mem.1 hc
          · exact hd
        · rw [List.mem_append, List.mem_singleton, or_comm]
          refine or_congr ⟨fun hd => hd ▸ rfl, fun hd => by cases hd; rfl⟩ ?_
          exact ⟨fun hd => ⟨hd, nofun⟩, And.left⟩
      · split
        · exact hkept
        · next hc =>
          refine List.pairwise_append.2 ⟨hkept, List.pairwise_singleton _ c, ?_⟩
          intro a ha b hb
          rw [List.mem_singleton.1 hb]
          -- it was not attached before, and whoever is listed was
          have hnew : ¬ IsAttached k c s.journal := fun hatt =>
            hc (List.contains_iff_mem.2 ((h.mem_iff k c).2 hatt))
          exact since_of_began ⟨rfl, hnew, (h.mem_iff k a).1 ha⟩
    · exact h.carry rfl (by rw [consumers_attach, if_neg hk])
        fun he => hk (Option.some.inj he).symm
  refine ⟨fun k => ?_, fun k => nodup_of_change h.once (.attach key c) k,
    fun k => (hat k).1, fun k => (hat k).2⟩
  show (s.roster.enroll key c).1.attached.get? k ≠ some []
  rw [Roster.enroll_eq, Roster.get?_attach]
  split
  · split
    · next hc =>
      intro hnil
      have hmem := List.contains_iff_mem.1 hc
      rw [Option.some.inj hnil] at hmem
      exact nomatch hmem
    · intro hnil
      exact List.append_ne_nil_of_right_ne_nil _ (List.cons_ne_nil c []) (Option.some.inj hnil)
  · exact h.filled k

theorem Listed.detach (h : s.Listed) (key : String) (c : Consumer) : (s.detach key c).Listed := by
  have hat : ∀ k, (∀ d, d ∈ (s.detach key c).roster.consumers k ↔
      IsAttached k d (s.detach key c).journal) ∧
      ((s.detach key c).roster.consumers k).Pairwise
        fun a b => CameBefore k a b (s.detach key c).journal := by
    intro k
    by_cases hk : k = key
    · subst hk
      rw [consumers_detach, if_pos rfl]
      constructor
      · intro d
        show _ ↔ IsAttached k d (s.journal ++ [.detached k c])
        rw [isAttached_concat, ← h.mem_iff, List.mem_filter]
        constructor
        · rintro ⟨hd, hne⟩
          refine .inr ⟨hd, fun he => ?_⟩
          cases he
          simp at hne
        · rintro (hd | ⟨hd, hne⟩)
          · cases hd
          · exact ⟨hd, bne_iff_ne.2 fun he => hne (he ▸ rfl)⟩
      · refine List.Pairwise.imp_of_mem ?_ ((h.order k).filter _)
        intro a b ha hb hab
        have hne : ∀ x, x ∈ (s.roster.consumers k).filter (· != c) →
            Entry.detached k c ≠ .detached k x := by
          intro x hx he
          cases he
          exact bne_iff_ne.1 (List.mem_filter.1 hx).2 rfl
        exact hab.concat (hne a ha) (hne b hb)
    · exact h.carry rfl (by rw [consumers_detach, if_neg hk])
        fun he => hk (Option.some.inj he).symm
  refine ⟨fun k => ?_, fun k => nodup_of_change h.once (.detach key c) k,
    fun k => (hat k).1, fun k => (hat k).2⟩
  show (s.roster.dismiss key c).1.attached.get? k ≠ some []
  rw [Roster.dismiss_eq]
  exact Roster.get?_detach_ne h.filled

/-! ### At any time -/

theorem Listed.aside (h : s.Listed) (hroster : s'.roster = s.roster)
    (hjournal : s'.journal = s.journal ++ [e]) (he : e.key? = none) : s'.Listed := by
  have hat (k : String) := h.carry hjournal (congrArg (·.consumers k) hroster) (he ▸ nofun)
  refine ⟨?_, ?_, fun k => (hat k).1, fun k => (hat k).2⟩
  · rw [hroster]
    exact h.filled
  · rw [hroster]
    exact h.once

/-- **Each change keeps the roster in step with the journal.** -/
theorem Listed.change (h : s.Listed) (hs : Change s s') : s'.Listed := by
  cases hs with
  | attach key c => exact h.attach key c
  | detach key c => exact h.detach key c
  | enter c data => exact h.aside rfl rfl rfl
  | leave level o => exact h.aside rfl rfl rfl
  | count n => exact ⟨h.filled, h.once, h.mem_iff, h.order⟩

theorem listed_ofKind (kind : String) : (ofKind kind).Listed where
  filled := nofun
  once _ := List.nodup_nil
  mem_iff _ _ := ⟨nofun, fun h => absurd h not_since_nil⟩
  order _ := .nil

theorem listed_of_changes (hs : Changes (ofKind kind) s) : s.Listed := by
  induction hs with
  | refl => exact listed_ofKind kind
  | tail _ hstep ih => exact ih.change hstep

/-- The list of a key is as it was unless somebody attached a consumer to this key, or detached one
from it. -/
def Untouched (s s' : Scene) : Prop :=
  ∃ new, s'.journal = s.journal ++ new ∧ ∀ key, (∀ e ∈ new, e.key? ≠ some key) →
    s'.roster.consumers key = s.roster.consumers key

theorem untouched_of_change (hs : Change s s') : Untouched s s' := by
  cases hs with
  | attach k c =>
    refine ⟨[.attached k c], rfl, fun key hkey => ?_⟩
    have hne : key ≠ k := fun he => hkey _ List.mem_cons_self (congrArg some he.symm)
    rw [consumers_attach, if_neg hne]
  | detach k c =>
    refine ⟨[.detached k c], rfl, fun key hkey => ?_⟩
    have hne : key ≠ k := fun he => hkey _ List.mem_cons_self (congrArg some he.symm)
    rw [consumers_detach, if_neg hne]
  | enter | leave => exact ⟨_, rfl, fun _ _ => rfl⟩
  | count n => exact ⟨[], (List.append_nil _).symm, fun _ _ => rfl⟩

/-- **The list of a key stays as it is** until somebody changes it. -/
theorem untouched_of_changes (hs : Changes s s') : Untouched s s' := by
  induction hs with
  | refl => exact ⟨[], (List.append_nil _).symm, fun _ _ => rfl⟩
  | tail _ hstep ih =>
    obtain ⟨new, hnew, hsame⟩ := ih
    obtain ⟨new', hnew', hsame'⟩ := untouched_of_change hstep
    refine ⟨new ++ new', ?_, fun key hkey => ?_⟩
    · rw [hnew', hnew, List.append_assoc]
    · rw [hsame' key fun e he => hkey e (List.mem_append_right _ he)]
      exact hsame key fun e he => hkey e (List.mem_append_left _ he)

/-- **A roster at any time.**  Its lists are the consumers that are attached by the journal, in the
order in which they came, and none of them is empty.  The answers to whoever attaches or detaches a
consumer then are the lengths of the lists that this leads to, and leave all other lists alone.  A
consumer of a key that is told something is called if and only if it is attached then.  Whatever
consumers do while they are called, such a roster comes of it, in which just those lists are changed
that somebody attached a consumer to or detached one from. -/
theorem attached_of_changes (hs : Changes (ofKind kind) s) :
    s.Listed ∧
    (s.roster.keys.Nodup ∧ ∀ key, key ∈ s.roster.keys ↔ 0 < s.roster.count key) ∧
    (∀ key c, (s.roster.enroll key c).2 = ((s.attach key c).roster.consumers key).length ∧
      (s.roster.dismiss key c).2 = ((s.detach key c).roster.consumers key).length ∧
      ∀ other, other ≠ key →
        (s.attach key c).roster.consumers other = s.roster.consumers other ∧
        (s.detach key c).roster.consumers other = s.roster.consumers other) ∧
    ∀ conduct depth,
      (∀ key c data, ∃ calls,
        calls.map Prod.fst = (if c ∈ s.roster.consumers key then [c] else []) ∧
        Calls s ((stage conduct depth).tellOne key c data s).1 data calls ∧
        ((stage conduct depth).tellOne key c data s).2.toNat = completed calls) ∧
      ∀ ws, Changes (ofKind kind) (s.performAll (stage conduct depth) ws) ∧
        Untouched s (s.performAll (stage conduct depth) ws) := by
  have hlisted := listed_of_changes hs
  refine ⟨hlisted, ⟨s.roster.attached.nodup_keys,
    fun key => Roster.mem_keys_iff_of_filled hlisted.filled⟩, ?_, ?_⟩
  · intro key c
    refine ⟨?_, ?_, fun other hother => ⟨?_, ?_⟩⟩
    · show (s.roster.enroll key c).2 = (s.roster.enroll key c).1.count key
      rw [Roster.enroll_eq]
    · show (s.roster.dismiss key c).2 = (s.roster.dismiss key c).1.count key
      rw [Roster.dismiss_eq]
    · rw [consumers_attach, if_neg hother]
    · rw [consumers_detach, if_neg hother]
  · intro conduct depth
    constructor
    · intro key c data
      obtain ⟨act, hstage, hact⟩ := course_stage conduct depth
      rw [hstage]
      exact calls_tellOne hact key c data s
    · intro ws
      have hcourse := course_performAll conduct depth ws s
      exact ⟨hs.trans hcourse.changes, untouched_of_changes hcourse.changes⟩

/-- While consumers are called the list that they are called from is changed: one leaves and comes
back behind the others. -/
theorem attached_of_meddling :
    let s := threeConsumers.performAll (stage meddling 2)
      [.tell "k" ∅, .attach "k" "b", .detach "k" "c", .attach "j" "c"]
    Changes (ofKind "test") s ∧ s.Listed ∧ s.roster.consumers "k" = ["a", "d", "b"] ∧
      CameBefore "k" "d" "b" s.journal ∧ s.roster.keys = ["j", "k"] := by
  intro s
  have hbegin : Changes (ofKind "test") threeConsumers :=
    .head (.attach "k" "a") (.head (.attach "k" "b") (.single (.attach "k" "c")))
  obtain ⟨-, -, -, hall⟩ := attached_of_changes hbegin
  have hs : Changes (ofKind "test") s := ((hall meddling 2).2 _).1
  have hconsumers : s.roster.consumers "k" = ["a", "d", "b"] := by decide +kernel
  have hlisted := (attached_of_changes hs).1
  have horder := hlisted.order "k"
  rw [hconsumers] at horder
  have hbehind : CameBefore "k" "d" "b" s.journal :=
    (List.pairwise_cons.1 (List.pairwise_cons.1 horder).2).1 "b" List.mem_cons_self
  exact ⟨hs, hlisted, hconsumers, hbehind, by decide +kernel⟩

end Scene

end Discovery
