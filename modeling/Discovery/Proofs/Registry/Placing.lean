import Discovery.Proofs.Endpoint.Path
import Discovery.Proofs.Registry.Failures
import Discovery.Proofs.Tree.Refusal

/-!
# Placing a node

What an endpoint says about its segments, and what the tree says about the path of a node, are two
different things: an endpoint may have a path that names no node, because there are slashes within
its segments.  A registration finds that out only when it asks for the node itself, or for the first
of its ancestors that names no node either.  So a registration of such an endpoint always fails, and
the ancestors that do name nodes may have been created by then.

A registration of an endpoint whose path names a node is never refused for its path.

* `Server.path_of_badArguments`: which requests are refused for their path.
* `Genuine`: surroundings in which tree servers answer.
* `Placing`: what a registration has asked for so far.
* `placed_of_path`: registrations at paths that name nodes, and at paths that do not.
* `left_of_slash`: ancestors that are left behind.
-/

namespace Discovery

open Discovery.Tree (Mode Reply Request Server SessionId)
open Discovery.Tree.Path (ancestors isNode)

/-! ### Requests about paths that name no node -/

namespace Tree

theorem exists_of_firstUnmet {l : List Demand} {why : Failure} (h : FirstUnmet l why) :
    ∃ d ∈ l, ¬ d.met ∧ d.otherwise = why := by
  induction l with
  | nil => exact h.elim
  | cons d l ih =>
    rcases h with ⟨hd, hwhy⟩ | ⟨-, h⟩
    · exact ⟨d, List.mem_cons_self, hd, hwhy⟩
    · obtain ⟨d', hd', h'⟩ := ih h
      exact ⟨d', List.mem_cons_of_mem _ hd', h'⟩

namespace Server

variable {v : Server} {s : SessionId} {q : Request} {path p : String}

/-- **Only what is about a path that names no node is refused for its path.** -/
theorem path_of_badArguments (h : (v.answer s q).2.1 = .failed (.badArguments p)) :
    q.path = p ∧ isNode p = false := by
  obtain ⟨d, hd, hunmet, hwhy⟩ := exists_of_firstUnmet (failed_answer_iff.1 h)
  have hparent : d ∉ v.tree.parentDemands q.path := by
    unfold parentDemands
    cases Path.parent? q.path with
    | none => exact List.not_mem_nil
    | some q =>
      intro hd
      rcases List.mem_pair.1 hd with rfl | rfl <;> exact nomatch hwhy
  rcases List.mem_cons.1 hd with rfl | hd
  · exact nomatch hwhy
  cases q with
  | create path data mode =>
    rcases List.mem_cons.1 hd with rfl | hd
    · cases hwhy
      exact ⟨rfl, Bool.eq_false_iff.2 hunmet⟩
    · rcases List.mem_cons.1 hd with rfl | hd
      · exact nomatch hwhy
      · exact absurd hd hparent
  | delete path =>
    rcases List.mem_cons.1 hd with rfl | hd
    · cases hwhy
      exact ⟨rfl, Bool.eq_false_iff.2 hunmet⟩
    · rcases List.mem_pair.1 hd with rfl | rfl <;> exact nomatch hwhy
  | write path data =>
    obtain rfl := List.mem_singleton.1 hd
    exact nomatch hwhy
  | _ => exact absurd hd List.not_mem_nil

/-- **What is created is a node.** -/
theorem isNode_of_create {data : Bytes} {mode : Mode}
    (h : ∀ why, (v.answer s (.create path data mode)).2.1 ≠ .failed why) : isNode path = true := by
  rcases forall_met_or_firstUnmet (v.demands s (.create path data mode)) with hall | ⟨why, hwhy⟩
  · exact hall _ (List.mem_cons_of_mem _ List.mem_cons_self)
  · exact absurd (failed_answer_iff.2 hwhy) (h why)

end Server

end Tree

namespace Registry.Nodes

/-! ### The requests of a registration -/

/-- Tree servers answer, in whatever states and to whichever sessions. -/
def Genuine (w : Surroundings Request Reply) : Prop :=
  ∀ past q, ∃ (v : Server) (s : SessionId), w.reply past q = (v.answer s q).2.1

/-- What a registration has asked for so far, and how it is over. -/
structure Placing (a : Action) (path : String) (s : Solo Nodes Call Request Reply) : Prop where
  serves : ∀ c, s.call = some c → Serves a c
  about : ∀ x ∈ s.asked, x.1.path = path ∨ x.1.path ∈ ancestors path
  genuine : ∀ x ∈ s.asked, ∃ (v : Server) (i : SessionId), x.2 = (v.answer i x.1).2.1
  ended : s.call = none → (∃ x ∈ s.asked, Refused a x.1 x.2) ∨
    ∃ x ∈ s.asked, ∃ data mode, x.1 = .create path data mode ∧ ∀ why, x.2 ≠ .failed why

variable {a : Action} {r : Nodes} {c : Call} {q : Request} {reply : Reply} {path : String}
  {w : Surroundings Request Reply} {s : Solo Nodes Call Request Reply}

theorem exists_ask_of_register (hs : Serves a c) (hop : a.operation = "register")
    (hpath : a.endpoint.path = .ok path) :
    ∃ q, c.need = .ask q ∧ (q.path = path ∨ q.path ∈ ancestors path) := by
  have hat : ∀ {p : Publication}, Registers a p → p.path = path :=
    fun hp => Except.ok.inj (hp.2.symm.trans hpath)
  cases c with
  | checkLeaf p | clearLeaf p | putLeaf p => exact ⟨_, rfl, .inl (hat hs)⟩
  | climb p here above missing | build p here rest =>
    exact ⟨_, rfl, .inr (hat hs.1 ▸ hs.2 here List.mem_cons_self)⟩
  | findLeaf | removeLeaf => exact nomatch hs.1.symm.trans hop
  | _ => exact nomatch hs.symm.trans hop

/-- A registration that is over and was refused nothing has created the node. -/
theorem create_of_register (hs : Serves a c) (hop : a.operation = "register")
    (hpath : a.endpoint.path = .ok path) (hneed : c.need = .ask q) (hr : ¬ Refused a q reply)
    (hover : (r.answered c reply).call = none) :
    ∃ data mode, q = .create path data mode ∧ ∀ why, reply ≠ .failed why := by
  have hbuild : ∀ p ls, (r.buildUp p ls).call ≠ none := fun p ls => by cases ls <;> exact nofun
  have hclimb : ∀ p ls ms, (r.climbUp p ls ms).call ≠ none := fun p ls ms => by
    cases ls with
    | nil => exact hbuild p ms
    | cons here above => exact nofun
  cases c with
  | putLeaf p =>
    obtain rfl := Except.ok.inj (hs.2.symm.trans hpath)
    refine ⟨p.data, p.mode, (Need.ask.inj hneed).symm, ?_⟩
    rintro why rfl
    refine hr ⟨why, rfl, fun ht => ?_⟩
    -- The node itself is none of its ancestors.
    cases hneed
    cases ht with
    | ancestor x path above =>
      cases path.symm.trans hpath
      exact Tree.Path.ne_of_mem_ancestors above rfl
  | checkLeaf p =>
    cases reply with
    | failed e => exact absurd ⟨e, rfl, by cases hneed; exact nofun⟩ hr
    | present there =>
      cases there with
      | true => exact nomatch hover
      | false => exact absurd hover (hclimb _ _ _)
    | _ => exact absurd hover (hclimb _ _ _)
  | clearLeaf p =>
    cases reply with
    | failed e =>
      cases e with
      | noNode x => exact absurd hover (hclimb _ _ _)
      | _ => exact absurd ⟨_, rfl, by cases hneed; exact nofun⟩ hr
    | _ => exact absurd hover (hclimb _ _ _)
  | climb p here above missing =>
    cases reply with
    | failed e => exact absurd ⟨e, rfl, by cases hneed; exact nofun⟩ hr
    | present there =>
      cases there with
      | true => exact absurd hover (hbuild _ _)
      | false => exact absurd hover (hclimb _ _ _)
    | _ => exact absurd hover (hclimb _ _ _)
  | build p here rest =>
    cases reply with
    | failed e =>
      cases e with
      | nodeExists x => exact absurd hover (hbuild _ _)
      | _ => exact absurd ⟨_, rfl, by cases hneed; exact nofun⟩ hr
    | _ => exact absurd hover (hbuild _ _)
  | findLeaf | removeLeaf => exact nomatch hs.1.symm.trans hop
  | _ => exact nomatch hs.symm.trans hop

theorem placing_begin (r : Nodes) (hpath : a.endpoint.path = .ok path)
    (hop : a.operation = "register") : Placing a path (workings.begin r a) := by
  cases a with
  | register e data ephemeral =>
    have hstart : (r.start (.register e data ephemeral)).call =
        some (.checkLeaf ⟨e.describe r.core.kind, path, data.encode, .ofEphemeral ephemeral⟩) := by
      unfold start
      dsimp only
      rw [show e.path = .ok path from hpath]
      rfl
    refine ⟨fun c hc => ?_, nofun, nofun, fun hover => nomatch hstart.symm.trans hover⟩
    obtain rfl := Option.some.inj (hstart.symm.trans hc)
    exact ⟨rfl, hpath⟩
  | _ => simp [Action.operation] at hop

/-- **One step of a registration.** -/
theorem Placing.next (h : Placing a path s) (hw : Genuine w) (hpath : a.endpoint.path = .ok path)
    (hop : a.operation = "register") : Placing a path (workings.next w s) := by
  unfold Workings.next
  cases hc : s.call with
  | none => exact h
  | some c =>
    obtain ⟨q, hneed, hq⟩ := exists_ask_of_register (h.serves c hc) hop hpath
    have hneed' : workings.need c = .ask q := hneed
    dsimp only
    rw [hneed']
    have hjudged := judged_answered (workings.tellAll w s (w.news s.asked q)).registry
      (w.reply s.asked q) (h.serves c hc) hneed
    refine ⟨fun d hd => ?_, ?_, ?_, fun hover => ?_⟩
    · by_cases hr : Refused a q (w.reply s.asked q)
      · exact nomatch (hjudged.ill hr).ended.symm.trans hd
      · exact (hjudged.well hr).serves d hd
    · exact List.forall_mem_append.2 ⟨h.about, List.forall_mem_singleton.2 hq⟩
    · exact List.forall_mem_append.2 ⟨h.genuine, List.forall_mem_singleton.2 (hw s.asked q)⟩
    · have hmem : (q, w.reply s.asked q) ∈ s.asked ++ [(q, w.reply s.asked q)] :=
        List.mem_concat_self
      by_cases hr : Refused a q (w.reply s.asked q)
      · exact .inl ⟨_, hmem, hr⟩
      · exact .inr ⟨_, hmem, create_of_register (h.serves c hc) hop hpath hneed hr hover⟩

/-- **A whole registration.** -/
theorem placing_after (r : Nodes) (hw : Genuine w) (hpath : a.endpoint.path = .ok path)
    (hop : a.operation = "register") (n : Nat) : Placing a path (workings.after w r a n) := by
  induction n with
  | zero => exact placing_begin r hpath hop
  | succ n ih =>
    unfold Workings.after
    rw [Function.iterate_succ_apply']
    exact ih.next hw hpath hop

/-! ### What a registration comes to -/

theorem ready_register (r : Nodes) (hpath : a.endpoint.path = .ok path)
    (hop : a.operation = "register") : workings.Ready r a := by
  intro c t hc hneed
  obtain ⟨q, hq, -⟩ :=
    exists_ask_of_register ((placing_begin r hpath hop).serves c hc) hop hpath
  exact nomatch hq.symm.trans hneed

/-- **Registrations and paths.**  The path of an endpoint names a node exactly if each of its
segments does.  If so, nothing that its registration asks for is refused for its path.  If not, its
registration comes to an end all the same, was refused something and has failed, which is counted
once; the nodes that it has created by then are ancestors that name nodes. -/
theorem placed_of_path {e : Endpoint} {path : String} (hpath : e.path = .ok path) :
    (isNode path = true ↔ ∀ segment ∈ e.segments, isNode ("/" ++ segment) = true) ∧
    ∀ (r : Nodes) (data : Payload) (ephemeral : Bool) (w : Surroundings Request Reply),
      Genuine w →
      (isNode path = true → ∀ n, ∀ x ∈ (workings.after w r (.register e data ephemeral) n).asked,
        ∀ p, x.2 ≠ .failed (.badArguments p)) ∧
      (isNode path = false →
        (∃ n, (workings.after w r (.register e data ephemeral) n).call = none) ∧
        ∀ n, (workings.after w r (.register e data ephemeral) n).call = none →
          (∃ x ∈ (workings.after w r (.register e data ephemeral) n).asked,
            Refused (.register e data ephemeral) x.1 x.2) ∧
          workings.failures (workings.after w r (.register e data ephemeral) n).registry
              r.core.kind "register" =
            workings.failures r r.core.kind "register" + 1 ∧
          ∀ x ∈ (workings.after w r (.register e data ephemeral) n).asked, ∀ p bytes mode,
            x = (.create p bytes mode, .done) → p ∈ ancestors path ∧ isNode p = true) := by
  refine ⟨Endpoint.isNode_path_iff hpath, fun r data ephemeral w hw => ?_⟩
  have hplacing : ∀ n, Placing (.register e data ephemeral) path
      (workings.after w r (.register e data ephemeral) n) :=
    placing_after r hw hpath rfl
  constructor
  · intro hnode n x hx p hbad
    obtain ⟨v, s, hreply⟩ := (hplacing n).genuine x hx
    obtain ⟨rfl, hno⟩ := Server.path_of_badArguments (hreply.symm.trans hbad)
    have hyes : isNode x.1.path = true := by
      rcases (hplacing n).about x hx with hself | habove
      · exact hself ▸ hnode
      · exact Tree.Path.isNode_of_mem_ancestors hnode habove
    exact Bool.eq_false_iff.1 hno hyes
  · intro hnode
    obtain ⟨hends, hsettled⟩ := Workings.settled_of_ready keeps w
      (ready_register r (a := .register e data ephemeral) hpath rfl)
    refine ⟨hends, fun n hn => ?_⟩
    have hrefused : ∃ x ∈ (workings.after w r (.register e data ephemeral) n).asked,
        Refused (.register e data ephemeral) x.1 x.2 := by
      refine ((hplacing n).ended hn).resolve_right ?_
      rintro ⟨⟨q, reply⟩, hx, bytes, mode, rfl, hdone⟩
      obtain ⟨v, s, hreply⟩ := (hplacing n).genuine _ hx
      exact Bool.eq_false_iff.1 hnode
        (Server.isNode_of_create fun why hwhy => hdone why (hreply.trans hwhy))
    refine ⟨hrefused, (hsettled n hn).once (.inr hrefused), ?_⟩
    rintro x hx p bytes mode rfl
    obtain ⟨v, s, hdone⟩ := (hplacing n).genuine _ hx
    have hyes : isNode p = true :=
      Server.isNode_of_create fun why hwhy => nomatch hdone.trans hwhy
    refine ⟨((hplacing n).about _ hx).resolve_left ?_, hyes⟩
    rintro rfl
    exact Bool.eq_false_iff.1 hnode hyes

/-- One server answers, and nobody else asks it for anything. -/
def served (v : Server) (i : SessionId) : Surroundings Request Reply where
  reply past q := ((past.foldl (fun v x => (v.answer i x.1).1) v).answer i q).2.1
  news _ _ := []
  conduct _ _ _ := .completed

theorem genuine_served (v : Server) (i : SessionId) : Genuine (served v i) :=
  fun _ _ => ⟨_, _, rfl⟩

def slashed : Endpoint :=
  (Endpoint.ofHost "h" 1).addSegments ["a", "b/"]

/-- Registrations of an endpoint whose path names a node and of one whose path does not. -/
theorem placed_of_slash :
    (spot.path = .ok "/a/b" ∧ isNode "/a/b" = true ∧
      ∀ n, ∀ x ∈ (workings.after (served Server.empty.connect.1 1) (.new 0 1)
        (.register spot ∅ true) n).asked, ∀ p, x.2 ≠ .failed (.badArguments p)) ∧
    slashed.path = .ok "/a/b/" ∧ isNode "/a/b/" = false ∧
      ∃ n, (workings.after (served Server.empty.connect.1 1) (.new 0 1)
        (.register slashed ∅ false) n).call = none := by
  have hspot : spot.path = .ok "/a/b" := rfl
  have hslashed : slashed.path = .ok "/a/b/" := rfl
  refine ⟨⟨hspot, by decide, ?_⟩, hslashed, by decide, ?_⟩
  · exact ((placed_of_path hspot).2 _ _ _ _ (genuine_served _ _)).1 (by decide)
  · exact (((placed_of_path hslashed).2 _ _ _ _ (genuine_served _ _)).2 (by decide)).1

/-- **Ancestors are left behind**: a registration is refused for its path after it has created
them. -/
theorem left_of_slash :
    slashed.path = .ok "/a/b/" ∧ isNode "/a/b/" = false ∧
    ∃ s, s = workings.after (served Server.empty.connect.1 1) (.new 0 1)
        (.register slashed ∅ false) 6 ∧
      s.call = none ∧ workings.failures s.registry "zookeeper" "register" = 1 ∧
      s.asked = [(.check "/a/b/", .present false), (.check "/a/b", .present false),
        (.check "/a", .present false), (.create "/a" [] .persistent, .done),
        (.create "/a/b" [] .persistent, .done),
        (.create "/a/b/" (Payload.encode ∅) .persistent, .failed (.badArguments "/a/b/"))] := by
  refine ⟨rfl, by decide, _, rfl, by decide, by decide, by decide⟩

end Registry.Nodes

end Discovery
