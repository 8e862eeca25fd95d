import TagLedger.Proofs.Filling
import TagLedger.Proofs.Replies

/-!
# Tags that are spelled differently

A tag is taken if a definition has it to the letter, but a reply is searched for what stands between
its brackets, and letter case does not matter there. So `[log]`, `log` and `LOG` are three tags, and
each of them is found in a reply wherever the others are.

    a tag is refused       ↔  a definition has it to the letter
    two tags share a token ↔  their labels are the same when case is ignored     (tokens_shared)
-/

namespace TagLedger

open Text (SameText)

/-! ## Labels that are the same -/

namespace Tag

variable {k l s t u : List Char}

theorem afterFolded?_congr (h : SameText t u) (s : List Char) :
    afterFolded? t s = afterFolded? u s := by
  refine Option.ext fun r => ?_
  rw [afterFolded?_eq_some, afterFolded?_eq_some]
  constructor
  · rintro ⟨w, rfl, hw⟩
    exact ⟨w, rfl, h.symm.trans hw⟩
  · rintro ⟨w, rfl, hw⟩
    exact ⟨w, rfl, h.trans hw⟩

theorem afterOpen?_congr (h : SameText k l) (s : List Char) : afterOpen? k s = afterOpen? l s :=
  afterFolded?_congr (openToken_same h) s

theorem closedMark_congr (h : SameText k l) : closedMark k = closedMark l := by
  funext s
  unfold closedMark
  simp only [afterOpen?_congr h, afterFolded?_congr (closeToken_same h),
    (openToken_same h).length_eq, (closeToken_same h).length_eq]

theorem openMark_congr (h : SameText k l) (labels : List (List Char)) :
    openMark labels k = openMark labels l := by
  funext s
  unfold openMark
  simp only [afterOpen?_congr h, (openToken_same h).length_eq]

/-- A reply gives two labels one content if they are the same when case is ignored. -/
theorem content_congr (h : SameText k l) (labels : List (List Char)) (reply : List Char) :
    content labels k reply = content labels l reply := by
  unfold content bodies
  rw [closedMark_congr h, openMark_congr h]

end Tag

/-! ## Tokens of a variable -/

namespace Definition

variable {d e : Definition} {ds : List Definition}

/-- The text is an opening tag of the variable. -/
def Opens (d : Definition) (token : List Char) : Prop :=
  Tag.afterOpen? d.label.toList token = some []

instance (d : Definition) (token : List Char) : Decidable (d.Opens token) :=
  inferInstanceAs (Decidable (_ = _))

theorem opens_openToken {x : List Char} :
    d.Opens (Tag.openToken x) ↔ SameText d.label.toList x := by
  unfold Opens Tag.afterOpen?
  rw [Tag.afterFolded?_eq_some]
  constructor
  · rintro ⟨w, hx, hw⟩
    rw [List.append_nil] at hx
    subst hx
    obtain ⟨o, ho, hsame⟩ := Tag.exists_openToken hw
    unfold Tag.openToken at ho
    rw [(List.append_inj' (List.cons.inj ho).2 rfl).1]
    exact hsame
  · intro h
    exact ⟨_, (List.append_nil _).symm, Tag.openToken_same h⟩

/-- Two variables share an opening tag exactly if their labels are the same. -/
theorem exists_opens_iff : (∃ x, d.Opens (Tag.openToken x) ∧ e.Opens (Tag.openToken x)) ↔
    SameText d.label.toList e.label.toList := by
  constructor
  · rintro ⟨x, hd, he⟩
    exact (opens_openToken.mp hd).trans (opens_openToken.mp he).symm
  · intro h
    exact ⟨e.label.toList, opens_openToken.mpr h, opens_openToken.mpr (.refl _)⟩

/-- What a reply gives for a tag is the content of a variable that has it. -/
theorem mem_parseReply {tag content reply : String} : ⟨tag, content⟩ ∈ parseReply reply ds ↔
    content ≠ "" ∧ ∃ d ∈ ds, d.tag = tag ∧
      Tag.content (labelsOf ds) d.label.toList reply.toList = content := by
  unfold parseReply
  simp only [List.mem_filterMap, labelsOf, toList_label]
  constructor
  · rintro ⟨d, hd, hresult⟩
    split at hresult
    · cases hresult
    · next hne =>
      obtain ⟨rfl, rfl⟩ := Tagged.mk.inj (Option.some.inj hresult)
      exact ⟨hne, d, hd, rfl, rfl⟩
  · rintro ⟨hne, d, hd, rfl, rfl⟩
    exact ⟨d, hd, if_neg hne⟩

/-- A segment for one of two tags with the same label is a segment for the other. -/
theorem mem_parseReply_same (h : SameText d.label.toList e.label.toList) (he : e ∈ ds)
    {content reply : String} (hmem : ⟨d.tag, content⟩ ∈ parseReply reply ds) :
    ⟨e.tag, content⟩ ∈ parseReply reply ds := by
  obtain ⟨hne, f, -, htag, hcontent⟩ := mem_parseReply.mp hmem
  have hlabel : f.label = d.label := congrArg Tag.label htag
  rw [hlabel, Tag.content_congr h] at hcontent
  exact mem_parseReply.mpr ⟨hne, e, he, rfl, hcontent⟩

end Definition

/-! ## Tags that are taken -/

namespace Variables

variable {s : Storage} {r : Root} {name tag : Option String} {mode : Mode}

theorem tagged?_eq_none {ds : List (String × Definition)} {tag : String} :
    tagged? ds tag = none ↔ ∀ i d, (i, d) ∈ ds → d.tag ≠ tag := by
  unfold tagged?
  simp only [List.find?_eq_none, List.mem_map, beq_iff_eq]
  constructor
  · intro h i d hd
    exact h d ⟨(i, d), hd, rfl⟩
  · rintro h d ⟨⟨i, e⟩, he, rfl⟩
    exact h i e he

/-- Nothing keeps a variable from being created once its name and its tag are found to be free. -/
theorem meets_created (ds : List (String × Definition)) (name tag : String) (mode : Mode) :
    Meets (fun _ => False) (Storage.Lists ds) (do
      let id ← Storage.newId "var" 5
      let now ← Storage.now
      let d : Definition := ⟨id, name, tag, mode, now, now⟩
      Storage.saveDefinitions (Json.insert ds id d)
      return (.ok d : Outcome Definition)) fun o _ => ∃ d, o = .ok d := by
  refine (Steps.newId "var" 5).bind fun id => Steps.now.bind fun now => ?_
  rintro s ⟨r, hr, -⟩
  unfold Storage.saveDefinitions
  rw [ended_bind_ok (Storage.ended_changeRoot hr _)]
  exact ⟨_, rfl⟩

/-- A variable is created under a tag exactly if no other has the tag to the letter. -/
theorem created_iff (hroot : s.store.root = some r) (hname : nameProblem? name = none)
    (htag : tagProblem? tag = none)
    (hnamed : named? r.definitions (Text.trimmed (name.getD "")) = none) :
    (∃ d, (ended (create name tag (some mode)) s).1 = .ok (.ok d)) ↔
      ∀ i d, (i, d) ∈ r.definitions → d.tag ≠ Text.trimmed (tag.getD "") := by
  rw [← tagged?_eq_none]
  have hdefinitions : ended Storage.definitions s = (.ok r.definitions, s) :=
    Storage.ended_definitions hroot
  unfold create
  rw [hname, htag]
  dsimp only [Option.orElse]
  rw [ended_bind_ok hdefinitions, hnamed]
  cases htagged : tagged? r.definitions (Text.trimmed (tag.getD "")) with
  | some d =>
    refine ⟨?_, nofun⟩
    rintro ⟨e, h⟩
    cases h
  | none =>
    refine ⟨fun _ => rfl, fun _ => ?_⟩
    have hcreated := meets_created r.definitions (Text.trimmed (name.getD ""))
      (Text.trimmed (tag.getD "")) mode s ⟨r, hroot, rfl⟩
    split at hcreated
    · next a t hrun =>
      obtain ⟨d, rfl⟩ := hcreated
      exact ⟨d, congrArg Prod.fst hrun⟩
    · exact hcreated.elim

end Variables

/-! ## From an empty store -/

/-- In a storage that an empty one came to, tags that share an opening tag differ in spelling only,
and what a reply gives for one of them it gives for the other. A further tag is taken if one of
them has it to the letter, and on no other account. -/
theorem tokens_shared {s t : Storage} (hnew : s.store.root = none)
    (hempty : ∀ name, s.shelf.find? name = none)
    (hrun : GuardedRun (ended Storage.load s).2 t) :
    ∃ ds, t.Lists ds ∧
      (∀ i j d e, Json.find? ds i = some d → Json.find? ds j = some e → i ≠ j →
        d.tag ≠ e.tag ∧
        ((∃ x, d.Opens (Tag.openToken x) ∧ e.Opens (Tag.openToken x)) ↔
          SameText d.label.toList e.label.toList) ∧
        (SameText d.label.toList e.label.toList → ∀ asked reply content, d ∈ asked → e ∈ asked →
          (⟨d.tag, content⟩ ∈ parseReply reply asked ↔
            ⟨e.tag, content⟩ ∈ parseReply reply asked))) ∧
      ∀ name tag mode, nameProblem? name = none → tagProblem? tag = none →
        Variables.named? ds (Text.trimmed (name.getD "")) = none →
        ((∃ d, (ended (Variables.create name tag (some mode)) t).1 = .ok (.ok d)) ↔
          ∀ i d, (i, d) ∈ ds → d.tag ≠ Text.trimmed (tag.getD "")) := by
  obtain ⟨ds, hsteps, hlists⟩ := (Storage.Lists.ofNew hnew hempty).run hrun
  have htags := (unambiguous_of_steps hsteps).tags
  refine ⟨ds, hlists, fun i j d e hd he hij => ⟨?_, Definition.exists_opens_iff, ?_⟩, ?_⟩
  · intro htag
    exact hij (htags i j d e hd he htag)
  · intro hsame asked reply content hdmem hemem
    constructor
    · exact Definition.mem_parseReply_same hsame hemem
    · exact Definition.mem_parseReply_same hsame.symm hdmem
  · obtain ⟨r, hroot, rfl⟩ := hlists
    intro name tag mode hname htag hnamed
    exact Variables.created_iff hroot hname htag hnamed

/-- Two variables with one label are created where nothing was, and one segment is for both. -/
theorem tokens_shared_brackets :
    let s : Storage := ⟨.empty "root" "values-" 0 0, .ofDocuments [], ⟨0, 0⟩, .start⟩
    let ops : List Operation := [.ofVariables (.create (some "log") (some "[log]") (some .stack)),
      .ofVariables (.create (some "shout") (some " LOG") (some .stack))]
    let t := (ended Storage.load s).2.asked ops
    s.store.root = none ∧ (∀ name, s.shelf.find? name = none) ∧
      GuardedRun (ended Storage.load s).2 t ∧
      ∃ ds i j d e, t.Lists ds ∧ Json.find? ds i = some d ∧ Json.find? ds j = some e ∧ i ≠ j ∧
        d.tag = "[log]" ∧ e.tag = "LOG" ∧
        (∃ x, d.Opens (Tag.openToken x) ∧ e.Opens (Tag.openToken x)) ∧
        parseReply "[Log]one[/log]" [d, e] = [⟨"[log]", "one"⟩, ⟨"LOG", "one"⟩] := by
  intro s ops t
  have hempty : ∀ name, s.shelf.find? name = none := fun _ => rfl
  have hrun : GuardedRun (ended Storage.load s).2 t := by
    refine guardedRun_asked _ _ fun op hop => ?_
    simp only [ops, List.mem_cons, List.not_mem_nil, or_false] at hop
    rcases hop with rfl | rfl <;> exact fun _ => nofun
  obtain ⟨ds, hlists, hpairs, -⟩ := tokens_shared rfl hempty hrun
  let d : Definition := ⟨"var_0qyxjj", "log", "[log]", .stack, 0, 0⟩
  let e : Definition := ⟨"var_0b63ci", "shout", "LOG", .stack, 0, 0⟩
  have hboth : t.store.root.map (·.definitions) =
      some [("var_0qyxjj", d), ("var_0b63ci", e)] := by decide +kernel
  have hds : ds = [("var_0qyxjj", d), ("var_0b63ci", e)] := by
    obtain ⟨r, hroot, rfl⟩ := hlists
    rw [hroot] at hboth
    exact Option.some.inj hboth
  have hd : Json.find? ds "var_0qyxjj" = some d := by rw [hds]; rfl
  have he : Json.find? ds "var_0b63ci" = some e := by rw [hds]; rfl
  obtain ⟨-, hshared, -⟩ := hpairs _ _ d e hd he (by decide)
  exact ⟨rfl, hempty, hrun, ds, _, _, d, e, hlists, hd, he, by decide, rfl, rfl,
    hshared.mpr (by decide +kernel), by decide +kernel⟩

end TagLedger
