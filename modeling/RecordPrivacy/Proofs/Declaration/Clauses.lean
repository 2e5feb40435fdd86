import RecordPrivacy.Proofs.Declaration.Strategy

/-! Reading clauses.

Commas cut trees into clauses (`clausesOf`). The reader of clauses does not look for commas: it reads a
name and a body, and expects one where the body ends. Whoever folds over what it reads meets the
clauses one after the other all the same, provided that what is made of a clause depends on its own
trees alone (`Takes`), and succeeds just if something can be made of each (`readClauses_ok_iff`). -/
namespace RecordPrivacy.Declaration

/-! ### Clauses -/

def Tree.isComma : Tree → Bool
  | .sign ',' _ => true
  | _ => false

/-- Clauses are set apart by commas; behind the last there may be one more. -/
def clausesOf : List Tree → List (List Tree)
  | [] => []
  | tree :: rest =>
    if tree.isComma then [] :: clausesOf rest
    else
      match clausesOf rest with
      | [] => [[tree]]
      | clause :: later => (tree :: clause) :: later

/-- None of the trees is a comma. -/
def Unparted (clause : List Tree) : Prop :=
  ∀ tree ∈ clause, tree.isComma = false

theorem unparted_nil : Unparted [] := by
  intro tree h
  cases h

theorem clausesOf_comma {clause : List Tree} (unparted : Unparted clause) (joined : Bool)
    (rest : List Tree) :
    clausesOf (clause ++ .sign ',' joined :: rest) = clause :: clausesOf rest := by
  induction clause with
  | nil => rfl
  | cons tree clause ih =>
    obtain ⟨htree, hclause⟩ := List.forall_mem_cons.mp unparted
    rw [List.cons_append, clausesOf, htree, ih hclause]
    rfl

theorem clausesOf_unparted {clause : List Tree} (unparted : Unparted clause) (hne : clause ≠ []) :
    clausesOf clause = [clause] := by
  induction clause with
  | nil => exact absurd rfl hne
  | cons tree clause ih =>
    obtain ⟨htree, hclause⟩ := List.forall_mem_cons.mp unparted
    rw [clausesOf, htree]
    cases clause with
    | nil => rfl
    | cons next clause =>
      rw [ih hclause (List.cons_ne_nil _ _)]
      rfl

theorem clausesOf_ne_nil {trees : List Tree} (h : trees ≠ []) : clausesOf trees ≠ [] := by
  cases trees with
  | nil => exact absurd rfl h
  | cons tree rest =>
    rw [clausesOf]
    split
    · exact List.cons_ne_nil _ _
    · split <;> exact List.cons_ne_nil _ _

/-- Trees start with a clause, which is all of them or ends at a comma. -/
theorem exists_first_clause (trees : List Tree) : ∃ clause, Unparted clause ∧
    (trees = clause ∨ ∃ joined rest, trees = clause ++ .sign ',' joined :: rest) := by
  induction trees with
  | nil => exact ⟨[], unparted_nil, .inl rfl⟩
  | cons tree trees ih =>
    cases htree : tree.isComma with
    | true =>
      refine ⟨[], unparted_nil, .inr ?_⟩
      rw [Tree.isComma.eq_def] at htree
      split at htree
      · next joined => exact ⟨joined, trees, rfl⟩
      · cases htree
    | false =>
      obtain ⟨clause, unparted, h⟩ := ih
      refine ⟨tree :: clause, List.forall_mem_cons.mpr ⟨htree, unparted⟩, ?_⟩
      rcases h with rfl | ⟨joined, rest, rfl⟩
      · exact .inl rfl
      · exact .inr ⟨joined, rest, rfl⟩

/-- Behind a clause there is nothing or a comma. -/
def Ended (left : List Tree) : Prop :=
  left = [] ∨ ∃ joined rest, left = .sign ',' joined :: rest

theorem exists_append_of_clausesOf {trees clause : List Tree} {later : List (List Tree)}
    (h : clausesOf trees = clause :: later) : ∃ left, Ended left ∧ trees = clause ++ left := by
  obtain ⟨first, unparted, htrees⟩ := exists_first_clause trees
  rcases htrees with rfl | ⟨joined, rest, rfl⟩
  · by_cases hnil : trees = []
    · rw [hnil] at h
      cases h
    · rw [clausesOf_unparted unparted hnil] at h
      cases h
      exact ⟨[], .inl rfl, (List.append_nil _).symm⟩
  · rw [clausesOf_comma unparted] at h
    cases h
    exact ⟨_, .inr ⟨joined, rest, rfl⟩, rfl⟩

/-! ### Names -/

namespace Guard

theorem moreOfName_none {trees left : List Tree} (h : moreOfName trees = .ok (false, left)) :
    left = trees := by
  rw [moreOfName.eq_def] at h
  split at h
  · split at h <;> cases h
  · cases h
  · cases h
    rfl

/-- A clause that has a name starts with it. -/
theorem readName_eq_some {trees rest : List Tree} {text : String}
    (h : readName trees = .ok (some text, rest)) : trees = .word text :: rest := by
  rw [readName] at h
  cases hrooted : Tree.startsPath trees with
  | true =>
    simp only [hrooted, if_true] at h
    split at h
    · cases h
    · split at h <;> cases h
  | false =>
    simp only [hrooted, Bool.false_eq_true, if_false] at h
    split at h
    · cases h
    · next word left hfirst =>
      split at h
      · cases h
      · next longer left' hmore =>
        cases longer with
        | true => cases h
        | false =>
          cases h
          rw [moreOfName_none hmore]
          rw [firstWord.eq_def] at hfirst
          split at hfirst <;> cases hfirst
          rfl

theorem readName_word {text : String} {rest : List Tree} (h : Tree.startsPath rest = false) :
    readName (.word text :: rest) = .ok (some text, rest) := by
  have hmore : moreOfName rest = .ok (false, rest) := by
    rw [moreOfName.eq_def]
    split <;> simp_all [Tree.startsPath, Tree.startsWithJoined, Tree.startsWith]
  simp [readName, Tree.startsPath, Tree.startsWithJoined, firstWord, hmore]

end Guard

/-! ### Folding over what is read -/

section
variable {α β σ ε : Type}

/-- From one state to another by one step for each member of a list. -/
def Through (step : σ → β → σ → Prop) : σ → List β → σ → Prop
  | start, [], stop => stop = start
  | start, b :: rest, stop => ∃ next, step start b next ∧ Through step next rest stop

theorem through_append {step : σ → β → σ → Prop} {start stop : σ} {bs later : List β} :
    Through step start (bs ++ later) stop ↔
      ∃ mid, Through step start bs mid ∧ Through step mid later stop := by
  induction bs generalizing start with
  | nil => simp [Through]
  | cons b bs ih =>
    simp only [List.cons_append, Through, ih]
    constructor
    · intro h
      obtain ⟨next, hstep, mid, hbs, hlater⟩ := h
      exact ⟨mid, ⟨next, hstep, hbs⟩, hlater⟩
    · intro h
      obtain ⟨mid, ⟨next, hstep, hbs⟩, hlater⟩ := h
      exact ⟨next, hstep, mid, hbs, hlater⟩

theorem through_map {γ : Type} {step : σ → γ → σ → Prop} {f : β → γ} {start stop : σ}
    {bs : List β} : Through step start (bs.map f) stop ↔
      Through (fun start b stop => step start (f b) stop) start bs stop := by
  induction bs generalizing start with
  | nil => rfl
  | cons b bs ih => simp only [List.map_cons, Through, ih]

/-- A step that goes through parts of its own, on a condition, goes through the parts of all. -/
theorem through_flatMap {γ : Type} {step : σ → γ → σ → Prop} {P : β → Prop} {parts : β → List γ}
    {start stop : σ} {bs : List β} :
    Through (fun start b stop => P b ∧ Through step start (parts b) stop) start bs stop ↔
      (∀ b ∈ bs, P b) ∧ Through step start (bs.flatMap parts) stop := by
  induction bs generalizing start with
  | nil => simp [Through]
  | cons b bs ih =>
    simp only [Through, ih, List.flatMap_cons, through_append, List.forall_mem_cons]
    constructor
    · intro h
      obtain ⟨mid, ⟨hb, hparts⟩, hbs, hlater⟩ := h
      exact ⟨⟨hb, hbs⟩, mid, hparts, hlater⟩
    · intro h
      obtain ⟨⟨hb, hbs⟩, mid, hparts, hlater⟩ := h
      exact ⟨mid, ⟨hb, hparts⟩, hbs, hlater⟩

/-- A body and a step on what it reads take clauses as the relation says: what the step accepts is a
clause at the front of the trees (`sound`), and such a clause is accepted where it ends
(`complete`). -/
structure Takes (body : Option String → List Tree → α × Option (List Tree))
    (step : σ → α → Except ε σ) (takes : σ → List Tree → σ → Prop) : Prop where
  sound : ∀ start stop trees name rest head left?, Guard.readName trees = .ok (name, rest) →
    body name rest = (head, left?) → step start head = .ok stop →
    ∃ clause left, left? = some left ∧ trees = clause ++ left ∧ takes start clause stop
  complete : ∀ start stop clause left, Ended left → takes start clause stop →
    ∃ name rest head, Guard.readName (clause ++ left) = .ok (name, rest) ∧
      body name rest = (head, some left) ∧ step start head = .ok stop
  unparted : ∀ start stop clause, takes start clause stop → clause ≠ [] ∧ Unparted clause

variable {body : Option String → List Tree → α × Option (List Tree)} {step : σ → α → Except ε σ}
  {takes : σ → List Tree → σ → Prop} {ofFault : FormFault → ε} {start stop : σ}

namespace Guard

/-- What is read behind a clause. -/
def afterClause (body : Option String → List Tree → α × Option (List Tree)) :
    List Tree → Listing α
  | [] => .done
  | .sign ',' _ :: more => if more.isEmpty then .done else readClauses body more
  | _ => .broken (.missing .comma)

/-- Whatever follows, the body that was read comes first. -/
theorem readClauses_head {trees rest : List Tree} {name : Option String} {head : α}
    {left? : Option (List Tree)} (hname : readName trees = .ok (name, rest))
    (hbody : body name rest = (head, left?)) :
    ∃ later, readClauses body trees = .clause head later := by
  rw [readClauses, hname]
  simp only [hbody]
  split
  · next heq => cases heq; exact ⟨_, rfl⟩
  · next heq => cases heq; exact ⟨_, rfl⟩
  · next heq =>
    cases heq
    split
    · exact ⟨_, rfl⟩
    · split <;> exact ⟨_, rfl⟩
  · next heq => cases heq; exact ⟨_, rfl⟩

theorem readClauses_eq {trees rest left : List Tree} {name : Option String} {head : α}
    (hname : readName trees = .ok (name, rest)) (hbody : body name rest = (head, some left))
    (hshort : left.length ≤ trees.length) :
    readClauses body trees = .clause head (afterClause body left) := by
  rw [readClauses, hname]
  simp only [hbody]
  split
  · next heq => cases heq
  · next heq =>
    cases heq
    rfl
  · next heq =>
    cases heq
    have hlt : _ < trees.length := hshort
    rw [if_pos hlt, afterClause]
    split <;> rfl
  · next hnil hcomma heq =>
    cases heq
    rw [afterClause]
    · exact hnil
    · exact hcomma

theorem afterClause_broken {tree : Tree} (h : tree.isComma = false) (rest : List Tree) :
    afterClause body (tree :: rest) = .broken (.missing .comma) := by
  rw [afterClause]
  · exact List.cons_ne_nil _ _
  · intro joined more heq
    cases heq
    cases h

/-- Behind a clause the others are read, if shorter trees are read as they should be. -/
theorem afterClause_ok_iff {clause left : List Tree} (unparted : Unparted clause) (hne : clause ≠ [])
    (shorter : ∀ more : List Tree, more.length < left.length →
      ((readClauses body more).foldUntil ofFault step start = .ok stop ↔
        more ≠ [] ∧ Through takes start (clausesOf more) stop)) :
    (afterClause body left).foldUntil ofFault step start = .ok stop ↔
      ∃ later, clausesOf (clause ++ left) = clause :: later ∧ Through takes start later stop := by
  obtain ⟨more, hmore, hleft⟩ := exists_first_clause left
  cases more with
  | nil =>
    rcases hleft with rfl | ⟨joined, rest, rfl⟩
    · rw [List.append_nil, clausesOf_unparted unparted hne]
      simp [afterClause, Listing.foldUntil, Through, eq_comm]
    · rw [List.nil_append, clausesOf_comma unparted]
      cases rest with
      | nil => simp [afterClause, Listing.foldUntil, clausesOf, Through, eq_comm]
      | cons tree rest =>
        rw [afterClause, List.isEmpty_cons, if_neg Bool.false_ne_true,
          shorter _ (Nat.lt_succ_self _)]
        simp
  | cons tree more =>
    -- A body that ends before the clause does is followed by no comma.
    have hbroken : afterClause body left = .broken (.missing .comma) := by
      obtain ⟨htree, -⟩ := List.forall_mem_cons.mp hmore
      rcases hleft with rfl | ⟨joined, rest, rfl⟩ <;> exact afterClause_broken htree _
    have hlonger : ∃ later, clausesOf (clause ++ left) = (clause ++ tree :: more) :: later := by
      have hparts : Unparted (clause ++ tree :: more) :=
        List.forall_mem_append.mpr ⟨unparted, hmore⟩
      rcases hleft with rfl | ⟨joined, rest, rfl⟩
      · exact ⟨[], clausesOf_unparted hparts (by simp)⟩
      · exact ⟨_, by rw [← List.append_assoc, clausesOf_comma hparts]⟩
    obtain ⟨later, hlonger⟩ := hlonger
    rw [hbroken, hlonger]
    simp [Listing.foldUntil]

/-- **What is read are the clauses.** A fold over them succeeds just if there are any, and all are
taken. -/
theorem readClauses_ok_iff (h : Takes body step takes) {trees : List Tree} :
    (readClauses body trees).foldUntil ofFault step start = .ok stop ↔
      trees ≠ [] ∧ Through takes start (clausesOf trees) stop := by
  -- Behind a clause there are fewer trees.
  induction hn : trees.length using Nat.strongRecOn generalizing trees start with
  | ind m ih =>
    have hafter : ∀ {clause left next head name rest}, trees = clause ++ left →
        takes start clause next → readName trees = .ok (name, rest) →
        body name rest = (head, some left) → step start head = .ok next →
        ((readClauses body trees).foldUntil ofFault step start = .ok stop ↔
          ∃ later, clausesOf trees = clause :: later ∧ Through takes next later stop) := by
      intro clause left next head name rest htrees htaken hname hbody hstep
      obtain ⟨hne, unparted⟩ := h.unparted _ _ _ htaken
      have hshort : left.length < trees.length := by
        rw [htrees, List.length_append]
        exact Nat.lt_add_of_pos_left (List.length_pos_iff.mpr hne)
      rw [readClauses_eq hname hbody (Nat.le_of_lt hshort), Listing.foldUntil_clause_ok, htrees]
      simp only [hstep, Except.ok.injEq, exists_eq_left']
      exact afterClause_ok_iff unparted hne fun more hmore =>
        ih more.length (hn ▸ Nat.lt_trans hmore hshort) rfl
    constructor
    · intro hfold
      cases hname : readName trees with
      | error fault =>
        rw [readClauses, hname] at hfold
        cases hfold
      | ok named =>
        obtain ⟨name, rest⟩ := named
        obtain ⟨later, hread⟩ := readClauses_head hname (rfl : body name rest = (_, _))
        have hstart := hfold
        rw [hread, Listing.foldUntil_clause_ok] at hstart
        obtain ⟨next, hstep, -⟩ := hstart
        obtain ⟨clause, left, hleft, htrees, htaken⟩ := h.sound _ _ _ _ _ _ _ hname rfl hstep
        obtain ⟨later, hclauses, hthrough⟩ :=
          (hafter htrees htaken hname (Prod.ext rfl hleft) hstep).mp hfold
        rw [hclauses]
        refine ⟨fun hnil => ?_, next, htaken, hthrough⟩
        rw [hnil] at hclauses
        cases hclauses
    · intro hthrough
      obtain ⟨hne, hthrough⟩ := hthrough
      obtain ⟨clause, later, hclauses⟩ := List.exists_cons_of_ne_nil (clausesOf_ne_nil hne)
      rw [hclauses] at hthrough
      obtain ⟨next, htaken, hlater⟩ := hthrough
      obtain ⟨left, ended, htrees⟩ := exists_append_of_clausesOf hclauses
      obtain ⟨name, rest, head, hname, hbody, hstep⟩ := h.complete _ _ _ left ended htaken
      rw [← htrees] at hname
      exact (hafter htrees htaken hname hbody hstep).mpr ⟨later, hclauses, hlater⟩

/-- In the list of a guard there may be nothing. If the clauses have parts, these are gone through. -/
theorem list_ok_iff {γ : Type} {P : List Tree → Prop} {part : σ → γ → σ → Prop}
    {parts : List Tree → List γ}
    (h : Takes body step fun start clause stop =>
      P clause ∧ Through part start (parts clause) stop) {inside : List Tree} :
    (if inside.isEmpty then Listing.done else readClauses body inside).foldUntil ofFault step start =
        .ok stop ↔
      (∀ clause ∈ clausesOf inside, P clause) ∧
        Through part start ((clausesOf inside).flatMap parts) stop := by
  cases inside with
  | nil => simp [Listing.foldUntil, clausesOf, Through, eq_comm]
  | cons tree rest =>
    rw [List.isEmpty_cons, if_neg Bool.false_ne_true, readClauses_ok_iff h, through_flatMap]
    exact and_iff_right (List.cons_ne_nil _ _)

end Guard

end

end RecordPrivacy.Declaration
