import Discovery.Proofs.Text.Order
import Discovery.Proofs.Tree.Path
import Discovery.Tree.Basic

/-!
# What an operation on the tree does

One statement for each operation that changes the tree: when it succeeds, and what the tree and
the deliveries are then.

* `create_eq_ok_iff`, `delete_eq_ok_iff`, `write_eq_ok_iff`: the three operations on nodes.
* `hasChildren_iff`: a node has children exactly when some path lies below it.
-/

namespace Discovery.Tree

variable {t t' : Tree} {p : String} {s : SessionId} {data : Bytes} {mode : Mode}
  {ds : List Delivery}

theorem throw_bind {ε α β : Type} (e : ε) (f : α → Except ε β) :
    ((throw e : Except ε α) >>= f) = .error e := rfl

def Mode.owner (s : SessionId) : Mode → Option SessionId
  | .ephemeral => some s
  | .persistent => none

/-- **A node has children exactly when some path lies below it.** -/
theorem hasChildren_iff : t.hasChildren p = true ↔
    ∃ q n, t.nodes.get? q = some n ∧ Path.startsWith q (Path.below p) = true := by
  have hfrom : t.hasChildren p = true ↔
      ∃ e, t.nodes.from? (Path.below p) = some e ∧ (Path.below p).toList <+: e.1.toList := by
    unfold hasChildren
    cases hf : t.nodes.from? (Path.below p) with
    | none => simp
    | some e => simp [Path.startsWith_iff]
  rw [hfrom, Table.from?_isPrefix_iff]
  constructor
  · rintro ⟨e, he, hp⟩
    exact ⟨e.1, e.2, Table.mem_entries_iff.1 he, Path.startsWith_iff.2 hp⟩
  · rintro ⟨q, n, hq, hp⟩
    exact ⟨(q, n), Table.mem_entries_iff.2 hq, Path.startsWith_iff.1 hp⟩

theorem isEphemeral_eq_false_iff {n : Node} : n.isEphemeral = false ↔ n.owner = none := by
  simp [Node.isEphemeral]

theorem checkParent_eq_ok_iff : t.checkParent p = .ok () ↔
    ∀ q, Path.parent? p = some q → ∃ n, t.nodes.get? q = some n ∧ n.owner = none := by
  unfold checkParent
  cases hq : Path.parent? p with
  | none => simp
  | some q =>
    cases hn : t.nodes.get? q with
    | none => simp [hn]
    | some n =>
      by_cases he : n.isEphemeral = true
      · have ho : n.owner ≠ none := fun ho => by simp [isEphemeral_eq_false_iff.2 ho] at he
        simp [hn, he, ho]
      · simp [hn, he, isEphemeral_eq_false_iff.1 (Bool.eq_false_iff.2 he)]

theorem create_eq_ok_iff : t.create s p data mode = .ok (t', ds) ↔
    Path.isNode p = true ∧ t.contains p = false ∧ t.checkParent p = .ok () ∧
      t' = { t with
        nodes := t.nodes.insert p ⟨data, mode.owner s⟩
        history := t.history ++ [.created p mode] } ∧
      ds = t.deliveries p (.changed p data) := by
  unfold create
  cases Path.isNode p with
  | false => simp [throw_bind]
  | true =>
  cases t.contains p with
  | true => simp [throw_bind]
  | false =>
  cases t.checkParent p with
  | error e => simp
  | ok u => cases mode <;> simp [Mode.owner, eq_comm]

theorem delete_eq_ok_iff : t.delete p = .ok (t', ds) ↔
    Path.isNode p = true ∧ t.nodes.contains p = true ∧ t.hasChildren p = false ∧
      t' = { t with nodes := t.nodes.erase p, history := t.history ++ [.deleted p] } ∧
      ds = t.deliveries p (.deleted p) := by
  unfold delete
  cases Path.isNode p with
  | false => simp [throw_bind]
  | true =>
  cases t.nodes.contains p with
  | false => simp [throw_bind]
  | true =>
  cases t.hasChildren p with
  | true => simp [throw, throwThe, MonadExceptOf.throw]
  | false => simp [pure, Except.pure, eq_comm]

theorem write_eq_ok_iff : t.write p data = .ok (t', ds) ↔
    ∃ n, t.nodes.get? p = some n ∧
      t' = { t with
        nodes := t.nodes.insert p { n with data }
        history := t.history ++ [.written p] } ∧
      ds = t.deliveries p (.changed p data) := by
  unfold write
  cases t.nodes.get? p with
  | none => simp
  | some n => simp [eq_comm]

end Discovery.Tree
