import Discovery.Naming.Remote.Client
import Discovery.Proofs.Json.Doubles
import Mathlib.Data.List.Induction
import Mathlib.Data.List.Nodup

/-!
# What listing again and again publishes

The instances of a service are listed in rounds.  What was found is compared with what was found
last, instance by instance, in the order of their keys; so it makes no difference in which order a
server names its hosts.  A round that fails changes nothing.

* `sameInstances_iff`: lists are equal when they are equal with their weights as numbers.
* `Recalls.round`: what was found last is what was listed last, round by round.
* `published_changes`: which rounds publish an event, and which one.
-/

namespace Discovery

/-! ### Equal weights -/

namespace Double

variable {x y : Double}

/-- One of all doubles that are the same number: the two zeros are one. -/
def canonical (x : Double) : Double :=
  if x.isZero then ofNat 0 else x

theorem isZero_canonical (x : Double) : x.canonical.isZero = x.isZero := by
  unfold canonical
  split
  · next hzero =>
    rw [hzero]
    rfl
  · rfl

theorem same_iff (hx : x.isNaN = false) (hy : y.isNaN = false) :
    x.same y = true ↔ x.canonical = y.canonical := by
  simp only [same, hx, hy, Bool.not_false, Bool.true_and, Bool.or_eq_true, Bool.and_eq_true,
    beq_iff_eq]
  constructor
  · rintro (rfl | ⟨hxz, hyz⟩)
    · rfl
    · simp [canonical, hxz, hyz]
  · intro h
    have hzeros : x.isZero = y.isZero := by rw [← isZero_canonical x, h, isZero_canonical]
    cases hxz : x.isZero with
    | true => exact .inr ⟨rfl, hzeros.symm.trans hxz⟩
    | false =>
      have hyz : y.isZero = false := hzeros.symm.trans hxz
      exact .inl (by simpa [canonical, hxz, hyz] using h)

end Double

namespace Naming

variable {service : String} {a b i : Instance} {as bs : List Instance}

def Instance.canonical (i : Instance) : Instance :=
  { i with weight := i.weight.canonical }

def Instance.IsWeighed (i : Instance) : Prop :=
  i.weight.isNaN = false

theorem Instance.same_iff (ha : a.IsWeighed) (hb : b.IsWeighed) :
    a.same b = true ↔ a.canonical = b.canonical := by
  have hweight := Double.same_iff ha hb
  cases a
  cases b
  simp only [Instance.same, Instance.canonical, Bool.and_eq_true, beq_iff_eq,
    Instance.mk.injEq] at hweight ⊢
  rw [hweight]
  tauto

section Reading

open Json

/-- **An instance that is read has a weight.** -/
theorem Instance.yields_reader : Reader.Yields Instance.reader Instance.IsWeighed := by
  refine yields_readRecord ?_ (Double.isNaN_ofRatio ..)
  simp only [fields, List.forall_mem_cons, List.not_mem_nil]
  refine ⟨?_, ?_, ?_, ?weight, ?_, ?_, ?_, ?_, ?_, ?_, nofun⟩
  case weight => exact FieldReader.keeps_of yields_readDouble fun x i hx _ => hx
  all_goals exact FieldReader.keeps_of_set fun x i hi => hi

namespace Remote

def Listing.ofText (body : String) : Except Category Listing :=
  decode (readRecord Listing.fields ⟨"", []⟩) (Bytes.ofText body)

/-- The listing that a round got, if it got one. -/
def listing? : Except Trouble String → Option Listing
  | .ok body => (Listing.ofText body).toOption
  | .error _ => none

variable {r : Except Trouble String} {l : Listing}

theorem listing?_eq_some :
    listing? r = some l ↔ ∃ body, r = .ok body ∧ Listing.ofText body = .ok l := by
  cases r with
  | error t => simp [listing?]
  | ok body => cases h : Listing.ofText body <;> simp [listing?, h, Except.toOption]

/-- **All hosts of a listing have weights.** -/
theorem weighed_of_listing? (h : listing? r = some l) : ∀ i ∈ l.hosts, i.IsWeighed := by
  have hyields : Reader.Yields (readRecord Listing.fields ⟨"", []⟩)
      fun l => ∀ i ∈ l.hosts, i.IsWeighed := by
    refine yields_readRecord ?_ nofun
    simp only [Listing.fields, List.forall_mem_cons, List.not_mem_nil]
    refine ⟨?_, ?_, nofun⟩
    · exact FieldReader.keeps_of_set fun x l hl => hl
    · exact FieldReader.keeps_of (yields_readList Instance.yields_reader) fun x l hx _ => hx
  obtain ⟨body, rfl, hbody⟩ := listing?_eq_some.1 h
  exact hyields.decode hbody

end Remote

end Reading

/-! ### Lists in order -/

def keyLe (a b : Instance) : Bool :=
  decide (a.key ≤ b.key)

theorem pairwise_sort (as : List Instance) :
    (as.mergeSort keyLe).Pairwise fun a b => a.key ≤ b.key := by
  have htrans : ∀ a b c : Instance, keyLe a b = true → keyLe b c = true → keyLe a c = true :=
    fun a b c hab hbc =>
      decide_eq_true (String.le_trans (of_decide_eq_true hab) (of_decide_eq_true hbc))
  have htotal : ∀ a b : Instance, (keyLe a b || keyLe b a) = true := by
    intro a b
    rw [Bool.or_eq_true]
    exact (String.le_total a.key b.key).imp decide_eq_true decide_eq_true
  exact (List.pairwise_mergeSort htrans htotal as).imp of_decide_eq_true

/-- **Lists in order are equal when the same instances are in them**, if no two have one key. -/
theorem sort_eq_iff (ha : (as.map Instance.key).Nodup) (hb : (bs.map Instance.key).Nodup) :
    as.mergeSort keyLe = bs.mergeSort keyLe ↔ ∀ i, i ∈ as ↔ i ∈ bs := by
  have hpa := List.mergeSort_perm as keyLe
  have hpb := List.mergeSort_perm bs keyLe
  constructor
  · intro h i
    rw [← hpa.mem_iff, h, hpb.mem_iff]
  · intro h
    have hperm : as.Perm bs := (List.perm_ext_iff_of_nodup (.of_map _ ha) (.of_map _ hb)).2 h
    refine List.Perm.eq_of_pairwise ?_ (pairwise_sort as) (pairwise_sort bs)
      (hpa.trans (hperm.trans hpb.symm))
    intro a b ha' hb' hab hba
    have hbm : b ∈ as := (h b).2 (hpb.mem_iff.1 hb')
    exact List.inj_on_of_nodup_map ha (hpa.mem_iff.1 ha') hbm (String.le_antisymm hab hba)

namespace Remote

open Client

variable {r : Except Trouble String} {rs : List (Except Trouble String)} {l : Listing}
  {last : List Instance} {j : Nat}

theorem sameInstances_iff (ha : ∀ i ∈ as, i.IsWeighed) (hb : ∀ i ∈ bs, i.IsWeighed) :
    sameInstances as bs = true ↔ as.map Instance.canonical = bs.map Instance.canonical := by
  induction as generalizing bs with
  | nil => cases bs <;> simp [sameInstances]
  | cons a as ih =>
    cases bs with
    | nil => simp [sameInstances]
    | cons b bs =>
      obtain ⟨ha, has⟩ := List.forall_mem_cons.1 ha
      obtain ⟨hb, hbs⟩ := List.forall_mem_cons.1 hb
      rw [sameInstances, Bool.and_eq_true, Instance.same_iff ha hb, ih has hbs, List.map_cons,
        List.map_cons, List.cons.injEq]

/-! ### Listings -/

/-- A listing whose hosts can be told apart by their keys and name the service or none. -/
structure Listing.IsProper (service : String) (l : Listing) : Prop where
  keys : (l.hosts.map Instance.key).Nodup
  services : ∀ i ∈ l.hosts, i.service = "" ∨ i.service = Group.join service Group.default

instance (service : String) (l : Listing) : Decidable (l.IsProper service) :=
  decidable_of_iff ((l.hosts.map Instance.key).Nodup ∧
      ∀ i ∈ l.hosts, i.service = "" ∨ i.service = Group.join service Group.default)
    ⟨fun h => ⟨h.1, h.2⟩, fun h => ⟨h.keys, h.services⟩⟩

/-- A host as one of a service. -/
def host (service : String) (i : Instance) : Instance :=
  { i with service }

/-- Hosts as those of a service, with their weights as numbers. -/
def faces (service : String) (hosts : List Instance) : List Instance :=
  hosts.map fun i => (host service i).canonical

/-- The same hosts in the order of their keys. -/
def arranged (service : String) (hosts : List Instance) : List Instance :=
  (faces service hosts).mergeSort keyLe

/-- **The same set of hosts**, whatever the order. -/
def SameHosts (service : String) (as bs : List Instance) : Prop :=
  ∀ i, i ∈ faces service as ↔ i ∈ faces service bs

instance (service : String) (as bs : List Instance) : Decidable (SameHosts service as bs) :=
  decidable_of_iff ((∀ i ∈ faces service as, i ∈ faces service bs) ∧
      ∀ i ∈ faces service bs, i ∈ faces service as)
    ⟨fun h i => ⟨h.1 i, h.2 i⟩, fun h => ⟨fun i => (h i).1, fun i => (h i).2⟩⟩

theorem named_eq (hi : i.service = "" ∨ i.service = Group.join service Group.default) :
    named service i = host service i := by
  unfold named
  rcases hi with h | h
  · rw [h]
    rfl
  · rw [h, Group.strip_join service (by decide)]
    dsimp only
    split
    · rfl
    · rfl

theorem instances_eq (hl : l.IsProper service) :
    l.instances service = (l.hosts.map (host service)).mergeSort keyLe := by
  unfold Listing.instances
  rw [List.map_congr_left fun i hi => named_eq (hl.services i hi)]
  rfl

theorem canonical_instances (hl : l.IsProper service) :
    (l.instances service).map Instance.canonical = arranged service l.hosts := by
  rw [instances_eq hl, List.map_mergeSort (r := keyLe) (s := keyLe)
    (f := Instance.canonical) fun _ _ _ _ => rfl, List.map_map]
  rfl

theorem map_key_faces (service : String) (hosts : List Instance) :
    (faces service hosts).map Instance.key = hosts.map Instance.key :=
  List.map_map

theorem arranged_eq_iff (ha : (as.map Instance.key).Nodup) (hb : (bs.map Instance.key).Nodup) :
    arranged service as = arranged service bs ↔ SameHosts service as bs := by
  rw [← map_key_faces service] at ha hb
  exact sort_eq_iff ha hb

/-! ### Rounds -/

def lastFound (service : String) (last : List Instance) (rs : List (Except Trouble String)) :
    List Instance :=
  rs.foldl (fun last r => (pollRound service last r).1) last

def published (service : String) : List Instance → List (Except Trouble String) →
    List (Option Event)
  | _, [] => []
  | last, r :: rs =>
    (pollRound service last r).2.1 :: published service (pollRound service last r).1 rs

def listedLast (rs : List (Except Trouble String)) : List Instance :=
  ((rs.filterMap listing?).getLast?.map Listing.hosts).getD []

/-- **A round without a listing** publishes nothing and leaves alone what was found last. -/
theorem pollRound_of_none (hr : listing? r = none) :
    (pollRound service last r).1 = last ∧ (pollRound service last r).2.1 = none := by
  cases r with
  | error t => exact ⟨rfl, rfl⟩
  | ok body =>
    change (Listing.ofText body).toOption = none at hr
    have hread : readListing service body = (Listing.ofText body).bind _ := rfl
    unfold pollRound
    dsimp only
    rw [hread]
    cases hl : Listing.ofText body with
    | error c => exact ⟨rfl, rfl⟩
    | ok l =>
      rw [hl] at hr
      exact nomatch hr

/-- **A round with a listing** compares what is found with what was found last. -/
theorem pollRound_of_some (service : String) (last : List Instance) (hr : listing? r = some l) :
    ((pollRound service last r).1, (pollRound service last r).2.1) =
      if sameInstances (l.instances service) last then (last, none)
      else (l.instances service, some ⟨service, l.instances service⟩) := by
  obtain ⟨body, rfl, hbody⟩ := listing?_eq_some.1 hr
  have hread : readListing service body = (Listing.ofText body).bind _ := rfl
  unfold pollRound
  dsimp only
  rw [hread, hbody]
  dsimp only [Except.bind, pure, Except.pure]
  split <;> rfl

/-- **What was found last is what was listed last**, in the order of the keys. -/
structure Recalls (service : String) (rs : List (Except Trouble String)) (last : List Instance) :
    Prop where
  found : last.map Instance.canonical = arranged service (listedLast rs)
  weighed : ∀ i ∈ last, i.IsWeighed

theorem recalls_nil (service : String) : Recalls service [] [] :=
  ⟨by simp [arranged, faces, listedLast], nofun⟩

theorem listedLast_concat_of_none (hr : listing? r = none) :
    listedLast (rs ++ [r]) = listedLast rs := by
  simp [listedLast, List.filterMap_append, hr]

theorem listedLast_concat_of_some (hr : listing? r = some l) :
    listedLast (rs ++ [r]) = l.hosts := by
  simp [listedLast, List.filterMap_append, hr]

theorem weighed_instances (hr : listing? r = some l) (hl : l.IsProper service) :
    ∀ i ∈ l.instances service, i.IsWeighed := by
  intro i hi
  rw [instances_eq hl, List.mem_mergeSort] at hi
  obtain ⟨h, hh, rfl⟩ := List.mem_map.1 hi
  exact weighed_of_listing? hr h hh

theorem sameInstances_iff_arranged (h : Recalls service rs last) (hr : listing? r = some l)
    (hl : l.IsProper service) :
    sameInstances (l.instances service) last = true ↔
      arranged service l.hosts = arranged service (listedLast rs) := by
  rw [sameInstances_iff (weighed_instances hr hl) h.weighed, canonical_instances hl, h.found]

/-- **Each round keeps what was listed last.** -/
theorem Recalls.round (h : Recalls service rs last)
    (hr : ∀ l, listing? r = some l → l.IsProper service) :
    Recalls service (rs ++ [r]) (pollRound service last r).1 := by
  cases hl : listing? r with
  | none =>
    rw [(pollRound_of_none hl).1]
    refine ⟨?_, h.weighed⟩
    rw [listedLast_concat_of_none hl]
    exact h.found
  | some l =>
    have hround := pollRound_of_some service last hl
    have hsame := sameInstances_iff_arranged h hl (hr l hl)
    split at hround
    · next heq =>
      -- what was found last stays, also where a zero has changed its sign
      rw [(Prod.mk.inj hround).1]
      refine ⟨?_, h.weighed⟩
      rw [listedLast_concat_of_some hl, hsame.1 heq]
      exact h.found
    · rw [(Prod.mk.inj hround).1]
      refine ⟨?_, weighed_instances hl (hr l hl)⟩
      rw [listedLast_concat_of_some hl]
      exact canonical_instances (hr l hl)

theorem recalls_lastFound (rs : List (Except Trouble String))
    (hrs : ∀ r ∈ rs, ∀ l, listing? r = some l → l.IsProper service) :
    Recalls service rs (lastFound service [] rs) := by
  induction rs using List.reverseRecOn with
  | nil => exact recalls_nil service
  | append_singleton rs r ih =>
    unfold lastFound
    rw [List.foldl_append]
    refine Recalls.round (ih fun r' hr' => hrs r' (List.mem_append_left _ hr')) ?_
    exact hrs r (List.mem_append_right _ (List.mem_singleton_self r))

theorem getElem?_published (service : String) (last : List Instance)
    (rs : List (Except Trouble String)) (j : Nat) :
    (published service last rs)[j]? =
      rs[j]?.map fun r => (pollRound service (lastFound service last (rs.take j)) r).2.1 := by
  induction rs generalizing last j with
  | nil => rfl
  | cons r rs ih =>
    cases j with
    | zero => rfl
    | succ j => exact ih _ j

theorem nodup_listedLast (hrs : ∀ r ∈ rs, ∀ l, listing? r = some l → l.IsProper service) :
    ((listedLast rs).map Instance.key).Nodup := by
  unfold listedLast
  cases hl : (rs.filterMap listing?).getLast? with
  | none => exact List.nodup_nil
  | some l =>
    obtain ⟨r, hr, hrl⟩ := List.mem_filterMap.1 (List.mem_of_getLast? hl)
    exact (hrs r hr l hrl).keys

/-- What a round publishes after some others. -/
structure Publishes (service : String) (before : List (Except Trouble String))
    (r : Except Trouble String) (e : Option Event) : Prop where
  /-- There is an event when other hosts are listed than before. -/
  changed : e.isSome = true ↔
    ∃ l, listing? r = some l ∧ ¬ SameHosts service l.hosts (listedLast before)
  /-- It names the service and its hosts, in the order of their keys. -/
  event : ∀ ev, e = some ev → ∃ l, listing? r = some l ∧ ev.service = service ∧
    ev.instances.Perm (l.hosts.map (host service)) ∧
    ev.instances.Pairwise fun a b => a.key < b.key

theorem perm_instances (hl : l.IsProper service) :
    (l.instances service).Perm (l.hosts.map (host service)) := by
  rw [instances_eq hl]
  exact List.mergeSort_perm _ _

theorem pairwise_instances (hl : l.IsProper service) :
    (l.instances service).Pairwise fun a b => a.key < b.key := by
  have hle : (l.instances service).Pairwise fun a b => a.key ≤ b.key := pairwise_sort _
  have hkeys : ((l.instances service).map Instance.key).Nodup := by
    rw [((perm_instances hl).map Instance.key).nodup_iff, List.map_map]
    exact hl.keys
  have hne := List.pairwise_map.1 (List.nodup_iff_pairwise_ne.1 hkeys)
  refine (hle.and hne).imp fun h => ?_
  exact String.not_le.1 fun hba => h.2 (String.le_antisymm h.1 hba)

/-- **What one round publishes**, when what was listed last is known. -/
theorem Recalls.publishes (h : Recalls service rs last)
    (hrs : ∀ r ∈ rs, ∀ l, listing? r = some l → l.IsProper service)
    (hr : ∀ l, listing? r = some l → l.IsProper service) :
    Publishes service rs r (pollRound service last r).2.1 := by
  cases hl : listing? r with
  | none =>
    rw [(pollRound_of_none hl).2]
    exact ⟨by simp [hl], nofun⟩
  | some l =>
    have hproper := hr l hl
    have hround := pollRound_of_some service last hl
    have hsame : sameInstances (l.instances service) last = true ↔
        SameHosts service l.hosts (listedLast rs) :=
      (sameInstances_iff_arranged h hl hproper).trans
        (arranged_eq_iff hproper.keys (nodup_listedLast hrs))
    split at hround
    · next heq =>
      rw [(Prod.mk.inj hround).2]
      refine ⟨⟨nofun, ?_⟩, nofun⟩
      rintro ⟨l', hl', hne⟩
      obtain rfl := Option.some.inj (hl.symm.trans hl')
      exact absurd (hsame.1 heq) hne
    · next hne =>
      rw [(Prod.mk.inj hround).2]
      refine ⟨⟨fun _ => ⟨l, hl, fun h => hne (hsame.2 h)⟩, fun _ => rfl⟩, ?_⟩
      rintro ev hev
      obtain rfl := Option.some.inj hev
      exact ⟨l, hl, rfl, perm_instances hproper, pairwise_instances hproper⟩

/-- **What listing again and again publishes.**  In any number of rounds, of which each fails, gets
what cannot be read, or lists hosts that can be told apart by their keys and name the service or
none: a round publishes an event if and only if it gets a listing, of another set of hosts than the
latest listing before it, or than none if there was none.  The event names the service and has the
hosts of the round, in the order of their keys, as hosts of the service.  A round without a listing
does not change what is compared. -/
theorem published_changes (service : String) (rs : List (Except Trouble String))
    (hrs : ∀ r ∈ rs, ∀ l, listing? r = some l → l.IsProper service) (hr : rs[j]? = some r) :
    ∃ e, (published service [] rs)[j]? = some e ∧ Publishes service (rs.take j) r e ∧
      (listing? r = none →
        lastFound service [] (rs.take (j + 1)) = lastFound service [] (rs.take j)) := by
  have hbefore : ∀ r ∈ rs.take j, ∀ l, listing? r = some l → l.IsProper service :=
    fun r hr => hrs r (List.mem_of_mem_take hr)
  refine ⟨(pollRound service (lastFound service [] (rs.take j)) r).2.1, ?_, ?_, fun hnone => ?_⟩
  · rw [getElem?_published, hr]
    rfl
  · exact (recalls_lastFound _ hbefore).publishes hbefore (hrs r (List.mem_of_getElem? hr))
  · rw [List.take_add_one, hr]
    unfold lastFound
    rw [List.foldl_append]
    exact (pollRound_of_none hnone).1

/-! ### Two hosts -/

def hostText (ip weight : String) : String :=
  "\x7b\"ip\":\"" ++ ip ++ "\",\"weight\":" ++ weight ++
    ",\"serviceName\":\"DEFAULT_GROUP@@a@@b\"\x7d"

def hostsText (hosts : String) : String :=
  "\x7b\"hosts\":[" ++ hosts ++ "]\x7d"

/-- Two hosts are listed in another order than before. -/
def reordered : Except Trouble String :=
  .ok (hostsText (hostText "a" "2.5" ++ "," ++ hostText "b" "-0.0"))

/-- Two hosts are listed, then nothing can be heard, then they are listed in another order, and then
they are gone. -/
def comingAndGoing : List (Except Trouble String) :=
  [.ok (hostsText (hostText "b" "0" ++ "," ++ hostText "a" "2.5")), .error .transport, reordered,
   .ok (hostsText "")]

theorem proper_comingAndGoing :
    ∀ r ∈ comingAndGoing, ∀ l, listing? r = some l → l.IsProper "a@@b" := by
  have hall : (comingAndGoing.filterMap listing?).all (fun l => decide (l.IsProper "a@@b")) =
      true := by
    decide +kernel
  intro r hr l hl
  exact of_decide_eq_true (List.all_eq_true.1 hall l (List.mem_filterMap.2 ⟨r, hr, hl⟩))

/-- **Another order is no change**, and it is one when the hosts are gone. -/
theorem published_of_comingAndGoing :
    (∃ e, (published "a@@b" [] comingAndGoing)[2]? = some e ∧ e.isSome = false) ∧
      ∃ e, (published "a@@b" [] comingAndGoing)[3]? = some e ∧ e.isSome = true := by
  constructor
  · obtain ⟨e, he, hpub, -⟩ := published_changes "a@@b" comingAndGoing proper_comingAndGoing
      (j := 2) (r := reordered) rfl
    refine ⟨e, he, Bool.eq_false_iff.2 fun hsome => ?_⟩
    obtain ⟨l, hl, hne⟩ := hpub.changed.1 hsome
    have hsame : (listing? reordered).all (fun l =>
        decide (SameHosts "a@@b" l.hosts (listedLast (comingAndGoing.take 2)))) = true := by
      decide +kernel
    rw [hl] at hsame
    exact hne (of_decide_eq_true hsame)
  · obtain ⟨e, he, hpub, -⟩ := published_changes "a@@b" comingAndGoing proper_comingAndGoing
      (j := 3) (r := .ok (hostsText "")) rfl
    have hempty : listing? (.ok (hostsText "")) = some ⟨"", []⟩ := by decide +kernel
    have hother : ¬ SameHosts "a@@b" [] (listedLast (comingAndGoing.take 3)) := by decide +kernel
    exact ⟨e, he, hpub.changed.2 ⟨_, hempty, hother⟩⟩

end Remote

end Naming

end Discovery
