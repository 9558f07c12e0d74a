import Discovery.Endpoint
import Discovery.Meter
import Discovery.Payload

/-!
# Rosters

A roster says which consumers are attached to each key, in the order in which they came.  Telling
the consumers of a key goes by the list as it was at the beginning, so a consumer may attach and
detach others while it is told; one that panics does not keep the others from being told.

* `consumers_attach`, `consumers_detach`: who is attached to a key afterwards.
* `enroll_eq`, `dismiss_eq`: how many these are, as the answer says.

A roster lives inside a larger state, and a consumer that is called may change that state.  A
`Host` says where the roster is and what a call of a consumer does.
-/

namespace Discovery

abbrev Consumer := String

/-- What a consumer panics with: a text or something else. -/
inductive Panic where
  | text (message : String)
  | other
deriving DecidableEq, Repr, Inhabited

def Panic.message : Panic → String
  | .text m => m
  | .other => "unknown panic"

/-- What a call of a consumer came to. -/
inductive Outcome where
  | completed
  | panicked (why : Panic)
deriving DecidableEq, Repr, Inhabited

/-- A line of the log. -/
structure LogLine where
  level : String
  message : String
  fields : List (String × String)
deriving DecidableEq, Repr, Inhabited

/-- The consumers of each key, and the meter of the registry they belong to. -/
structure Roster where
  kind : String
  attached : Table (List Consumer)
  meter : Meter
deriving DecidableEq, Repr, Inhabited

namespace Roster

/-- A roster without consumers for a registry type. -/
def ofKind (kind : String) : Roster := ⟨kind, ∅, ∅⟩

/-- The consumers of a key, in the order in which they came. -/
def consumers (r : Roster) (key : String) : List Consumer :=
  r.attached.getD key []

def count (r : Roster) (key : String) : Nat :=
  (r.consumers key).length

def keys (r : Roster) : List String :=
  r.attached.keys

/-- Attaches a consumer to a key; one that is attached stays where it is. -/
def attach (r : Roster) (key : String) (c : Consumer) : Roster :=
  let cs := r.consumers key
  { r with attached := r.attached.insert key (if cs.contains c then cs else cs ++ [c]) }

/-- Detaches a consumer from a key.  A key without consumers leaves the table. -/
def detach (r : Roster) (key : String) (c : Consumer) : Roster :=
  match r.attached.get? key with
  | none => r
  | some cs =>
    let left := cs.filter (· != c)
    { r with attached :=
        if left.isEmpty then r.attached.erase key else r.attached.insert key left }

/-- Attaches a consumer to a key.  The number is that of the consumers of the key. -/
def enroll (r : Roster) (key : String) (c : Consumer) : Roster × Nat :=
  let cs := r.consumers key
  let cs := if cs.contains c then cs else cs ++ [c]
  ({ r with attached := r.attached.insert key cs }, cs.length)

/-- Takes a key out of the table if its list is empty. -/
def clear (r : Roster) (key : String) : Roster :=
  match r.attached.get? key with
  | some [] => { r with attached := r.attached.erase key }
  | _ => r

/-- Detaches a consumer from a key: it leaves the list, and then a list that has become empty leaves
the table.  The number is that of the consumers who are left. -/
def dismiss (r : Roster) (key : String) (c : Consumer) : Roster × Nat :=
  match r.attached.get? key with
  | none => (r, 0)
  | some cs =>
    let left := cs.filter (· != c)
    let r : Roster := { r with attached := r.attached.insert key left }
    (if left.length = 0 then r.clear key else r, left.length)

def addDeliveries (r : Roster) (n : Nat) : Roster :=
  { r with meter := r.meter.addDeliveries r.kind (UInt64.ofNat n) }

/-- What is written down about a failure that the caller does not see. -/
def failureLine (r : Roster) (operation key reason : String) : LogLine where
  level := "WARN"
  message := operation ++ " " ++ key ++ " failed: " ++ reason
  fields := [("registry", r.kind), ("operation", operation), ("key", key)]

def fail (r : Roster) (operation : String) : Roster :=
  { r with meter := r.meter.fail r.kind operation }

/-! ### The consumers of a key -/

@[simp] theorem consumers_ofKind (kind key : String) : (ofKind kind).consumers key = [] := rfl

theorem consumers_attach (r : Roster) (key k : String) (c : Consumer) :
    (r.attach key c).consumers k =
      if k = key then
        if (r.consumers key).contains c then r.consumers key else r.consumers key ++ [c]
      else r.consumers k := by
  simp only [attach, consumers, Table.getD, Table.get?_insert]
  by_cases h : k = key <;> simp [h]

theorem kind_detach (r : Roster) (key : String) (c : Consumer) :
    (r.detach key c).kind = r.kind := by
  unfold detach
  split <;> rfl

theorem meter_detach (r : Roster) (key : String) (c : Consumer) :
    (r.detach key c).meter = r.meter := by
  unfold detach
  split <;> rfl

theorem consumers_detach (r : Roster) (key k : String) (c : Consumer) :
    (r.detach key c).consumers k =
      if k = key then (r.consumers key).filter (· != c) else r.consumers k := by
  unfold detach
  cases h : r.attached.get? key with
  | none =>
    by_cases hk : k = key
    · subst hk
      simp [consumers, Table.getD, h]
    · simp [hk]
  | some cs =>
    have hc : r.consumers key = cs := by simp [consumers, Table.getD, h]
    by_cases hk : k = key
    · subst hk
      by_cases he : (cs.filter (· != c)).isEmpty
      · simp [consumers, Table.getD, h, List.isEmpty_iff.1 he]
      · simp [consumers, Table.getD, h, he]
    · by_cases he : (cs.filter (· != c)).isEmpty <;>
        simp [consumers, Table.getD, he, hk, Table.get?_erase_of_ne, Table.get?_insert_of_ne]

/-! ### How many consumers a key has -/

theorem enroll_eq (r : Roster) (key : String) (c : Consumer) :
    r.enroll key c = (r.attach key c, (r.attach key c).count key) := by
  have hcount : (r.attach key c).count key = (r.enroll key c).2 := by
    unfold count
    rw [consumers_attach, if_pos rfl]
    rfl
  rw [hcount]
  rfl

/-- **Detaching in two steps** comes to the same as in one, and the number is that of the consumers
who are left. -/
theorem dismiss_eq (r : Roster) (key : String) (c : Consumer) :
    r.dismiss key c = (r.detach key c, (r.detach key c).count key) := by
  unfold count
  rw [consumers_detach, if_pos rfl]
  unfold dismiss detach consumers Table.getD
  cases h : r.attached.get? key with
  | none => rfl
  | some cs =>
    dsimp only [Option.getD_some]
    cases hleft : cs.filter (· != c) with
    | nil =>
      have hgone : (r.attached.insert key []).erase key = r.attached.erase key := by
        refine Table.ext_get? fun k => ?_
        rw [Table.get?_erase, Table.get?_erase, Table.get?_insert]
        split <;> rfl
      simp [clear, hgone]
    | cons d ds => simp

end Roster

/-! ## Telling -/

/-- What is written down about a consumer that panicked. -/
def Panic.line (p : Panic) (key : String) : LogLine where
  level := "ERROR"
  message := "consumer panicked: " ++ p.message
  fields := [("key", key)]

/-- Where a roster lives, what a call of one of its consumers does there, and where panics are
written down. -/
structure Host (σ : Type) where
  roster : σ → Roster
  update : (Roster → Roster) → σ → σ
  call : Consumer → Payload → σ → σ × Outcome
  log : LogLine → σ → σ

namespace Host

variable {σ : Type}

/-- Calls one consumer.  A panic is written down and goes no further; the answer says whether the
call completed. -/
def deliver (h : Host σ) (key : String) (data : Payload) (c : Consumer) (s : σ) : σ × Bool :=
  match h.call c data s with
  | (s', .completed) => (s', true)
  | (s', .panicked why) => (h.log (why.line key) s', false)

/-- Calls the consumers of a list one after the other; the number is that of the calls that
completed. -/
def deliverAll (h : Host σ) (key : String) (data : Payload) : List Consumer → σ → σ × Nat
  | [], s => (s, 0)
  | c :: cs, s =>
    let (s', ok) := h.deliver key data c s
    let (s'', n) := h.deliverAll key data cs s'
    (s'', if ok then n + 1 else n)

/-- Tells all consumers that a key has now.  The number is that of the calls that completed. -/
def tell (h : Host σ) (key : String) (data : Payload) (s : σ) : σ × Nat :=
  match (h.roster s).attached.get? key with
  | none => (s, 0)
  | some cs =>
    let (s', n) := h.deliverAll key data cs s
    (h.update (·.addDeliveries n) s', n)

/-- Tells one consumer of a key, if it is attached; the answer says whether the call completed. -/
def tellOne (h : Host σ) (key : String) (c : Consumer) (data : Payload) (s : σ) : σ × Bool :=
  if ((h.roster s).consumers key).contains c then
    let (s', ok) := h.deliver key data c s
    (if ok then h.update (·.addDeliveries 1) s' else s', ok)
  else (s, false)

end Host

end Discovery
