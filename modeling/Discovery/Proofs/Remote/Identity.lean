import Discovery.Naming.Remote.Query
import Discovery.Proofs.Remote.Response

/-!
# What instances are told apart by

A server tells instances apart by parameters of the messages that register and deregister them: the
service and its group, the address, the kind, the cluster and the namespace.  Who deregisters an
instance says nothing of its cluster, so the default one is named, while a registration names the
cluster of the instance.  All else is named alike.

* `Exchange.identity`: what a message names of the instance that it is about.
* `identity_register`, `identity_deregister`: what both queries name, over whichever link and with
  whichever token they are sent.
* `proper_of_course`: the messages of a course are logins or the query.
* `stays_iff_of_messages`: what the messages of both requests agree on, and when an instance stays
  at a server that has been told to let it go.
* `stays_of_cluster`: an instance that stays.
-/

namespace Discovery.Naming.Remote

variable {s : Settings} {now : Nat} {net : Network} {k : Link} {q : Query} {c : Course}
  {service : String} {i : Instance} {y : Sent} {t : Option String} {a b : List (Option String)}

/-! ### Naming an instance -/

/-- The parameters of a query by which a server tells instances apart. -/
def namingParams : List String :=
  ["serviceName", "groupName", "ip", "port", "ephemeral", "clusterName"]

/-- What a message names of the instance that it is about, the namespace included. -/
def Exchange.identity (x : Exchange) : List (Option String) :=
  (namingParams ++ ["namespaceId"]).map fun name => List.lookup name x.query

/-- The instances that a server holds when a message has come in: it holds one that is registered,
and lets one go that is deregistered. -/
def Exchange.keep (x : Exchange) (held : List (List (Option String))) :
    List (List (Option String)) :=
  if x.method = "POST" then x.identity :: held.filter (· != x.identity)
  else if x.method = "DELETE" then held.filter (· != x.identity)
  else held

/-- What stands among the parameters of a query is not looked up behind them. -/
theorem lookup_queryExchange {name value : String} (h : List.lookup name q.params = some value) :
    List.lookup name (queryExchange s k q t).query = some value := by
  unfold queryExchange
  dsimp only
  rw [List.append_assoc, List.lookup_append, h]
  rfl

theorem lookup_namespace (h : List.lookup "namespaceId" q.params = none) :
    List.lookup "namespaceId" (queryExchange s k q t).query =
      if s.space = "" then none else some s.space := by
  unfold queryExchange
  dsimp only
  rw [List.append_assoc, List.lookup_append, h, Option.none_or]
  by_cases hs : s.space = ""
  · rw [if_pos hs, if_pos hs]
    cases t <;> rfl
  · rw [if_neg hs, if_neg hs]
    rfl

/-- **What a message names** is what its query names, and the namespace. -/
theorem identity_queryExchange (hnamed : ∀ name ∈ namingParams, (List.lookup name q.params).isSome)
    (hspace : List.lookup "namespaceId" q.params = none) :
    (queryExchange s k q t).identity = namingParams.map (fun name => List.lookup name q.params) ++
      [if s.space = "" then none else some s.space] := by
  unfold Exchange.identity
  rw [List.map_append, List.map_singleton, lookup_namespace hspace]
  congr 1
  refine List.map_congr_left fun name hname => ?_
  obtain ⟨value, hvalue⟩ := Option.isSome_iff_exists.1 (hnamed name hname)
  rw [lookup_queryExchange hvalue, hvalue]

def instanceIdentity (s : Settings) (service : String) (i : Instance) (cluster : String) :
    List (Option String) :=
  [some (Group.join service Group.default), some Group.default, some i.ip, some (portText i.port),
    some (boolText i.ephemeral), some cluster, if s.space = "" then none else some s.space]

/-- **A registration names the cluster of the instance.** -/
theorem identity_register (s : Settings) (k : Link) (service : String) (i : Instance)
    (t : Option String) : (queryExchange s k (registerQuery service i) t).identity =
      instanceIdentity s service i (clusterOf i) := by
  rw [identity_queryExchange ?_ rfl]
  · rfl
  · unfold namingParams
    simp only [List.forall_mem_cons]
    exact ⟨rfl, rfl, rfl, rfl, rfl, rfl, nofun⟩

/-- **A deregistration names the default cluster.** -/
theorem identity_deregister (s : Settings) (k : Link) (service : String) (i : Instance)
    (t : Option String) :
    (queryExchange s k (deregisterQuery service i.ip i.port i.ephemeral) t).identity =
      instanceIdentity s service i defaultCluster := by
  rw [identity_queryExchange ?_ rfl]
  · rfl
  · unfold namingParams
    simp only [List.forall_mem_cons]
    exact ⟨rfl, rfl, rfl, rfl, rfl, rfl, nofun⟩

theorem instanceIdentity_inj {cluster cluster' : String} :
    instanceIdentity s service i cluster = instanceIdentity s service i cluster' ↔
      cluster = cluster' := by
  simp [instanceIdentity]

/-! ### The messages of a request -/

def Sent.Asks (s : Settings) (q : Query) (y : Sent) : Prop :=
  y.phase = .asking ∧ y.Proper s q

theorem exists_queryExchange_of_asks (h : y.Asks s q) :
    ∃ k t, y.exchange = queryExchange s k q t := by
  obtain ⟨hphase, k, -, ⟨hlogin, -⟩ | ⟨-, t, hx⟩⟩ := h
  · exact nomatch hlogin.symm.trans hphase
  · exact ⟨k, t, hx⟩

/-- **The messages of a course** are logins or the query, each to the server that it is meant
for. -/
theorem proper_of_course (hc : k.course? s now net q = some c) (hy : y ∈ c.sent) :
    y.Proper s q := by
  obtain ⟨j, hj⟩ := List.getElem?_of_mem hy
  obtain ⟨_, k', r', hquery, hfit, hstand, -⟩ := exists_stand (fits_next ..) hc hj
  have hq : r'.query = q := hquery.trans (query_next ..)
  obtain ⟨hphase, hserver⟩ : y.phase = r'.phase ∧ y.server = k'.place s := by
    rw [hstand]
    exact ⟨rfl, rfl⟩
  refine ⟨k', hserver.symm, ?_⟩
  rcases hfit with ⟨hlogin, hx⟩ | ⟨hasking, t, hx⟩
  · exact .inl ⟨hphase.trans hlogin, hx⟩
  · exact .inr ⟨hphase.trans hasking, t, hq ▸ hx⟩

/-! ### What a server holds -/

theorem mem_foldl_keep_of_post : ∀ {ms : List Sent} (held : List (List (Option String))),
    (∀ y ∈ ms, y.exchange.method = "POST" ∧ y.exchange.identity = a) → ms ≠ [] →
    a ∈ ms.foldl (fun held y => y.exchange.keep held) held := by
  intro ms
  induction ms with
  | nil => exact fun _ _ hne => absurd rfl hne
  | cons y ms ih =>
    intro held hms _
    obtain ⟨⟨hpost, hy⟩, hms⟩ := List.forall_mem_cons.1 hms
    cases ms with
    | nil =>
      show a ∈ y.exchange.keep held
      rw [Exchange.keep, if_pos hpost, hy]
      exact List.mem_cons_self
    | cons y' ms => exact ih _ hms (List.cons_ne_nil _ _)

theorem mem_foldl_keep_of_delete : ∀ {ms : List Sent} {held : List (List (Option String))},
    (∀ y ∈ ms, y.exchange.method = "DELETE" ∧ y.exchange.identity = b) → ms ≠ [] →
    (a ∈ ms.foldl (fun held y => y.exchange.keep held) held ↔ a ∈ held ∧ a ≠ b) := by
  intro ms
  induction ms with
  | nil => exact fun _ hne => absurd rfl hne
  | cons y ms ih =>
    intro held hms _
    obtain ⟨⟨hdelete, hy⟩, hms⟩ := List.forall_mem_cons.1 hms
    have hkeep : y.exchange.keep held = held.filter (· != b) := by
      rw [Exchange.keep, if_neg (by rw [hdelete]; decide), if_pos hdelete, hy]
    have hone : a ∈ y.exchange.keep held ↔ a ∈ held ∧ a ≠ b := by
      rw [hkeep, List.mem_filter, bne_iff_ne]
    cases ms with
    | nil => exact hone
    | cons y' ms =>
      rw [List.foldl_cons, ih hms (List.cons_ne_nil _ _), hone]
      exact ⟨fun h => h.1, fun h => ⟨h, h.2⟩⟩

/-! ### Registering and deregistering -/

/-- **A deregistration names what the registration named, but for the cluster.**  Whichever messages
of both requests come in, over whichever links and with whichever tokens they were sent: they agree
on the service, the group, the address, the kind and the namespace; the one names the cluster of the
instance, the other the default one.  So an instance stays at a server that has been told of it, and
then told to let it go, exactly if its cluster is not the default one. -/
theorem stays_iff_of_messages (s : Settings) (service : String) (i : Instance) {ms ms' : List Sent}
    (hms : ∀ y ∈ ms, y.Asks s (registerQuery service i))
    (hms' : ∀ y ∈ ms', y.Asks s (deregisterQuery service i.ip i.port i.ephemeral)) :
    (∀ y ∈ ms, ∀ y' ∈ ms',
      (∀ name ∈ namingParams ++ ["namespaceId"], name ≠ "clusterName" →
        List.lookup name y.exchange.query = List.lookup name y'.exchange.query) ∧
      List.lookup "clusterName" y.exchange.query = some (clusterOf i) ∧
      List.lookup "clusterName" y'.exchange.query = some defaultCluster) ∧
    (ms ≠ [] → ms' ≠ [] → ∀ held,
      (∀ y ∈ ms, y.exchange.identity ∈
        (ms ++ ms').foldl (fun held y => y.exchange.keep held) held) ↔
          clusterOf i ≠ defaultCluster) := by
  have hpost : ∀ y ∈ ms, y.exchange.method = "POST" ∧
      y.exchange.identity = instanceIdentity s service i (clusterOf i) := by
    intro y hy
    obtain ⟨k, t, hx⟩ := exists_queryExchange_of_asks (hms y hy)
    rw [hx]
    exact ⟨rfl, identity_register s k service i t⟩
  have hdelete : ∀ y ∈ ms', y.exchange.method = "DELETE" ∧
      y.exchange.identity = instanceIdentity s service i defaultCluster := by
    intro y hy
    obtain ⟨k, t, hx⟩ := exists_queryExchange_of_asks (hms' y hy)
    rw [hx]
    exact ⟨rfl, identity_deregister s k service i t⟩
  constructor
  · intro y hy y' hy'
    have hidentity := (hpost y hy).2
    have hidentity' := (hdelete y' hy').2
    unfold Exchange.identity namingParams instanceIdentity at hidentity hidentity'
    simp only [List.cons_append, List.nil_append, List.map_cons, List.map_nil, List.cons.injEq,
      and_true] at hidentity hidentity'
    obtain ⟨hservice, hgroup, hip, hport, hkind, hcluster, hspace⟩ := hidentity
    obtain ⟨hservice', hgroup', hip', hport', hkind', hcluster', hspace'⟩ := hidentity'
    refine ⟨?_, hcluster, hcluster'⟩
    simp only [namingParams, List.cons_append, List.nil_append, List.forall_mem_cons]
    exact ⟨fun _ => hservice.trans hservice'.symm, fun _ => hgroup.trans hgroup'.symm,
      fun _ => hip.trans hip'.symm, fun _ => hport.trans hport'.symm,
      fun _ => hkind.trans hkind'.symm, fun hne => absurd rfl hne,
      fun _ => hspace.trans hspace'.symm, nofun⟩
  · intro hne hne' held
    have hleft : ∀ y ∈ ms, y.exchange.identity ∈
        (ms ++ ms').foldl (fun held y => y.exchange.keep held) held ↔
          clusterOf i ≠ defaultCluster := by
      intro y hy
      rw [List.foldl_append, (hpost y hy).2, mem_foldl_keep_of_delete hdelete hne',
        and_iff_right (mem_foldl_keep_of_post held hpost hne)]
      exact not_congr instanceIdentity_inj
    obtain ⟨y, hy⟩ := List.exists_mem_of_ne_nil ms hne
    exact ⟨fun h => (hleft y hy).1 (h y hy), fun h y hy => (hleft y hy).2 h⟩

def welcoming : Network := fun _ _ => .reply 200 (some "ok")

def clustered (cluster : String) : Instance :=
  { Instance.ofAddress "10.0.0.1" 8080 with cluster }

/-- An instance that names no cluster is let go. -/
theorem stays_iff_of_default_cluster :
    ∃ c c', Link.new.course? Settings.default 0 welcoming (registerQuery "svc" (clustered "")) =
        some c ∧
      Link.new.course? Settings.default 0 welcoming (deregisterQuery "svc" "10.0.0.1" 8080 true) =
        some c' ∧
      c.sent ≠ [] ∧ c'.sent ≠ [] ∧ clusterOf (clustered "") = defaultCluster ∧
      ¬ ∀ y ∈ c.sent, y.exchange.identity ∈
        (c.sent ++ c'.sent).foldl (fun held y => y.exchange.keep held) [] := by
  have hcourse : (Link.new.course? Settings.default 0 welcoming
      (registerQuery "svc" (clustered ""))).map (fun c => c.sent.map (·.phase)) =
        some [.asking] := by
    decide +kernel
  have hcourse' : (Link.new.course? Settings.default 0 welcoming
      (deregisterQuery "svc" "10.0.0.1" 8080 true)).map (fun c => c.sent.map (·.phase)) =
        some [.asking] := by
    decide +kernel
  obtain ⟨c, hc, hsent⟩ := Option.map_eq_some_iff.1 hcourse
  obtain ⟨c', hc', hsent'⟩ := Option.map_eq_some_iff.1 hcourse'
  have hasks : ∀ y ∈ c.sent, y.phase = .asking := fun y hy =>
    List.mem_singleton.1 (hsent ▸ List.mem_map_of_mem hy)
  have hasks' : ∀ y ∈ c'.sent, y.phase = .asking := fun y hy =>
    List.mem_singleton.1 (hsent' ▸ List.mem_map_of_mem hy)
  have hne : c.sent ≠ [] := fun h => by simp [h] at hsent
  have hne' : c'.sent ≠ [] := fun h => by simp [h] at hsent'
  have hstays := (stays_iff_of_messages Settings.default "svc" (clustered "")
    (fun y hy => ⟨hasks y hy, proper_of_course hc hy⟩)
    fun y hy => ⟨hasks' y hy, proper_of_course hc' hy⟩).2 hne hne' []
  exact ⟨c, c', hc, hc', hne, hne', rfl, fun h => hstays.1 h rfl⟩

/-- **An instance in a cluster stays**: the server was told of it in its cluster, and told to let
one go that would be in the default one. -/
theorem stays_of_cluster :
    ∃ c c' y y', Link.new.course? Settings.default 0 welcoming
        (registerQuery "svc" (clustered "c1")) = some c ∧
      Link.new.course? Settings.default 0 welcoming (deregisterQuery "svc" "10.0.0.1" 8080 true) =
        some c' ∧
      c.sent = [y] ∧ c'.sent = [y'] ∧ c.result = some (.ok "ok") ∧ c'.result = some (.ok "ok") ∧
      List.lookup "clusterName" y.exchange.query = some "c1" ∧
      List.lookup "clusterName" y'.exchange.query = some "DEFAULT" ∧
      y.exchange.identity ∈ y'.exchange.keep (y.exchange.keep []) := by
  refine ⟨_, _, _, _, rfl, rfl, rfl, rfl, rfl, rfl, rfl, rfl, ?_⟩
  decide +kernel

end Discovery.Naming.Remote
