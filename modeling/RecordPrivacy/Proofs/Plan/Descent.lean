import RecordPrivacy.Proofs.Plan.Compilation
import Mathlib.Data.Fintype.Card

/-! How far down compilation goes.

Compilation is given the types that are still fresh, and these run out. `Family.descend` is told nothing
of the sort: it goes down into every nested record, unless the type is on the chain that leads there, and
notes the ways that it has gone. That it ends, with as many records open at a time as there are types at
most, and with the result of compilation, is a theorem (`compile_ends`). -/
namespace RecordPrivacy
variable {n : Nat}

/-! ### Descents -/

/-- A descent that has come to its end: the ways to the records that were entered, and the result. -/
structure Descent (n : Nat) where
  ways : List (List (Step n))
  result : Except CompileError (List (Action × FieldPlan))

namespace Descent

/-- A descent that enters nothing. -/
def stay (result : Except CompileError (List (Action × FieldPlan))) : Descent n :=
  ⟨[], result⟩

/-- The one descent and then, unless it has failed, the other. -/
def andThen (first : Descent n) (later : Option (Descent n)) : Option (Descent n) :=
  match first.result with
  | .error _ => some first
  | .ok entries =>
    later.map fun d => ⟨first.ways ++ d.ways, d.result.map (entries ++ ·)⟩

end Descent

/-- The descent through the field at a place; `enter` says what becomes of a nested record. -/
def descendField (enter : Step n → Option (Descent n)) (at_ : Position) (place : Nat)
    (field : FieldSchema n) : Option (Descent n) :=
  match field.kind with
  | .leaf shape directives => some (.stay (compileLeaf at_ field shape directives))
  | .nested optional record => enter ⟨place, field, optional, record⟩

/-- The descent through fields that are numbered from a place on. -/
def descendFields (enter : Step n → Option (Descent n)) (at_ : Position) :
    (place : Nat) → List (FieldSchema n) → Option (Descent n)
  | _, [] => some (.stay (.ok []))
  | place, field :: rest =>
    (descendField enter at_ place field).bind fun here =>
      here.andThen (descendFields enter at_ (place + 1) rest)

/-- What becomes of a nested record at the end of a way: it is refused if its type is on the chain. -/
def Family.enter (family : Family n) (root : Fin n) (way : List (Step n))
    (deeper : List (Step n) → Fin n → Option (Descent n)) (step : Step n) : Option (Descent n) :=
  if (chain root way).contains step.record then
    some (.stay (.error (.recursiveType ((Position.along way).dotted step.field.name)
      (family step.record).name)))
  else deeper (way ++ [step]) step.record

/-- The descent from the end of a way. It is cut off, and has no end, where more than `depth` records
would be open at a time. -/
def Family.descend (family : Family n) (root : Fin n) :
    (depth : Nat) → List (Step n) → Fin n → Option (Descent n)
  | 0, _, _ => none
  | depth + 1, way, type =>
    (descendFields (family.enter root way (family.descend root depth)) (.along way) 0
      (family type).fields).map fun below => ⟨way :: below.ways, below.result⟩

variable {family : Family n} {root : Fin n}

/-! ### Nothing is lost with more room -/

theorem descendFields_mono {enter enter' : Step n → Option (Descent n)} {at_ : Position}
    (more : ∀ step d, enter step = some d → enter' step = some d) {place : Nat}
    {fields : List (FieldSchema n)} {d : Descent n}
    (h : descendFields enter at_ place fields = some d) :
    descendFields enter' at_ place fields = some d := by
  induction fields generalizing place d with
  | nil => exact h
  | cons field rest ih =>
    rw [descendFields] at h ⊢
    obtain ⟨here, hhere, hthen⟩ := Option.bind_eq_some_iff.mp h
    have hhere' : descendField enter' at_ place field = some here := by
      rw [descendField] at hhere ⊢
      cases hkind : field.kind with
      | leaf shape directives => simpa only [hkind] using hhere
      | nested optional record =>
        simp only [hkind] at hhere ⊢
        exact more _ _ hhere
    rw [hhere', Option.bind_some]
    rw [Descent.andThen] at hthen ⊢
    cases hresult : here.result with
    | error e => simpa only [hresult] using hthen
    | ok entries =>
      simp only [hresult] at hthen ⊢
      obtain ⟨later, hlater, hd⟩ := Option.map_eq_some_iff.mp hthen
      rw [ih hlater, Option.map_some, hd]

theorem Family.descend_succ {depth : Nat} {way : List (Step n)} {type : Fin n} {d : Descent n}
    (h : family.descend root depth way type = some d) :
    family.descend root (depth + 1) way type = some d := by
  induction depth generalizing way type d with
  | zero => cases h
  | succ depth ih =>
    rw [Family.descend] at h ⊢
    obtain ⟨below, hbelow, hd⟩ := Option.map_eq_some_iff.mp h
    refine Option.map_eq_some_iff.mpr ⟨below, ?_, hd⟩
    refine descendFields_mono (fun step d henter => ?_) hbelow
    rw [enter] at henter ⊢
    split
    · next hmem => rwa [if_pos hmem] at henter
    · next hmem =>
      rw [if_neg hmem] at henter
      exact ih henter

theorem Family.descend_of_le {depth depth' : Nat} {way : List (Step n)} {type : Fin n}
    {d : Descent n} (h : family.descend root depth way type = some d) (hle : depth ≤ depth') :
    family.descend root depth' way type = some d := by
  induction depth', hle using Nat.le_induction with
  | base => exact h
  | succ depth' _ ih => exact descend_succ ih

/-! ### What is entered -/

/-- The descent has the result of compilation. It has entered ways of a range on which no type comes
twice, and all ways of the range unless it has failed. -/
structure Descent.Explores (root : Fin n) (range : List (Step n) → Prop)
    (result : Except CompileError (List (Action × FieldPlan))) (d : Descent n) : Prop where
  result_eq : d.result = result
  entered : ∀ way ∈ d.ways, range way ∧ (chain root way).Nodup
  all : ∀ entries, result = .ok entries → ∀ way, range way → way ∈ d.ways

/-- The ways that go on from a type at the end of a trail. -/
def Onward (family : Family n) (trail : List (Step n)) (type : Fin n) (way : List (Step n)) : Prop :=
  ∃ rest last, way = trail ++ rest ∧ Way family type rest last

/-- The ways that go on through a field. -/
def Through (family : Family n) (trail : List (Step n)) (place : Nat) (field : FieldSchema n)
    (way : List (Step n)) : Prop :=
  ∃ optional record, field.kind = .nested optional record ∧
    Onward family (trail ++ [⟨place, field, optional, record⟩]) record way

theorem onward_iff {trail way : List (Step n)} {type : Fin n} :
    Onward family trail type way ↔ way = trail ∨
      ∃ place field, (family type).fields[place]? = some field ∧
        Through family trail place field way := by
  constructor
  · intro h
    obtain ⟨rest, last, hway, hrest⟩ := h
    cases hrest with
    | nil => exact .inl (by rw [hway, List.append_nil])
    | @cons _ _ step rest hstep hrest =>
      refine .inr ⟨step.place, step.field, hstep.declared, step.optional, step.record,
        hstep.nested, rest, last, ?_, hrest⟩
      rw [hway, List.append_assoc]
      rfl
  · intro h
    obtain rfl | ⟨place, field, hfield, optional, record, hkind, rest, last, hway, hrest⟩ := h
    · exact ⟨[], type, (List.append_nil way).symm, .nil⟩
    · refine ⟨⟨place, field, optional, record⟩ :: rest, last, ?_, .cons ⟨hfield, hkind⟩ hrest⟩
      rw [hway, List.append_assoc]
      rfl

namespace Descent.Explores
variable {M L : List (Step n) → Prop} {d : Descent n}
  {r s : Except CompileError (List (Action × FieldPlan))}

theorem congr (h : d.Explores root M r) (same : ∀ way, M way ↔ L way) : d.Explores root L r := by
  obtain rfl : M = L := funext fun way => propext (same way)
  exact h

theorem stay (h : ∀ entries, r = .ok entries → ∀ way, ¬ M way) :
    (Descent.stay r : Descent n).Explores root M r where
  result_eq := rfl
  entered := fun _ hway => nomatch hway
  all := fun entries hr way hway => absurd hway (h entries hr way)

theorem andThen (h : d.Explores root M r) {next : Option (Descent n)}
    (h' : ∃ later, next = some later ∧ later.Explores root L s) :
    ∃ both, d.andThen next = some both ∧
      both.Explores root (fun way => M way ∨ L way)
        (r.bind fun entries => s.map (entries ++ ·)) := by
  obtain ⟨later, rfl, h'⟩ := h'
  have hresult := h.result_eq
  rw [Descent.andThen]
  cases r with
  | error e =>
    simp only [hresult]
    refine ⟨d, rfl, hresult, fun way hway => ?_, fun entries hr => nomatch hr⟩
    exact ⟨.inl (h.entered way hway).1, (h.entered way hway).2⟩
  | ok entries =>
    simp only [hresult, Option.map_some]
    refine ⟨_, rfl, by rw [h'.result_eq]; rfl, fun way hway => ?_, fun both hr way hway => ?_⟩
    · rcases List.mem_append.mp hway with hway | hway
      · exact ⟨.inl (h.entered way hway).1, (h.entered way hway).2⟩
      · exact ⟨.inr (h'.entered way hway).1, (h'.entered way hway).2⟩
    · cases s with
      | error e => cases hr
      | ok more =>
        rcases hway with hway | hway
        · exact List.mem_append_left _ (h.all entries rfl way hway)
        · exact List.mem_append_right _ (h'.all more rfl way hway)

end Descent.Explores

section
variable {trail : List (Step n)} {fresh : List (Fin n)} {enter : Step n → Option (Descent n)}

/-- The descent through a field, if that into a nested record is right. -/
theorem descendField_explores {place : Nat} {field : FieldSchema n}
    (nested : ∀ optional record, field.kind = .nested optional record →
      ∃ d, enter ⟨place, field, optional, record⟩ = some d ∧
        d.Explores root (Onward family (trail ++ [⟨place, field, optional, record⟩]) record)
          (compileField family fresh (.along trail) field)) :
    ∃ d, descendField enter (.along trail) place field = some d ∧
      d.Explores root (Through family trail place field)
        (compileField family fresh (.along trail) field) := by
  rw [descendField]
  cases hkind : field.kind with
  | leaf shape directives =>
    refine ⟨_, rfl, ?_⟩
    rw [compileField]
    simp only [hkind]
    refine .stay fun _ _ way hway => ?_
    obtain ⟨_, _, hnested, -⟩ := hway
    cases hkind.symm.trans hnested
  | nested optional record =>
    obtain ⟨d, henter, h⟩ := nested optional record hkind
    refine ⟨d, henter, h.congr fun way => ⟨fun hway => ⟨optional, record, hkind, hway⟩, ?_⟩⟩
    intro hway
    obtain ⟨_, _, hnested, hway⟩ := hway
    cases hkind.symm.trans hnested
    exact hway

theorem descendFields_explores (fields : List (FieldSchema n)) (k : Nat)
    (each : ∀ field ∈ fields, ∀ place, ∃ d, descendField enter (.along trail) place field = some d ∧
      d.Explores root (Through family trail place field)
        (compileField family fresh (.along trail) field)) :
    ∃ d, descendFields enter (.along trail) k fields = some d ∧
      d.Explores root
        (fun way => ∃ i field, fields[i]? = some field ∧ Through family trail (k + i) field way)
        (compileFields family fresh (.along trail) fields) := by
  induction fields generalizing k with
  | nil =>
    rw [descendFields, compileFields]
    refine ⟨_, rfl, .stay fun _ _ way hway => ?_⟩
    obtain ⟨_, _, hfield, -⟩ := hway
    cases hfield
  | cons field rest ih =>
    obtain ⟨here, hhere, hfirst⟩ := each field List.mem_cons_self k
    obtain ⟨both, hboth, h⟩ :=
      hfirst.andThen (ih (k + 1) fun f hf => each f (List.mem_cons_of_mem _ hf))
    rw [descendFields, hhere, Option.bind_some, compileFields_cons]
    exact ⟨both, hboth, h.congr fun way =>
      exists_place_cons (P := fun i f => Through family trail i f way) field rest k⟩

end

/-- **The descent from the end of a way** comes to its end if as many records may be open as there are
fresh types, and one more. -/
theorem Family.descend_explores {depth : Nat} {trail : List (Step n)} {fresh : List (Fin n)}
    (hfresh : Fresh root trail fresh) (hnodup : (chain root trail).Nodup)
    (hdepth : fresh.length < depth) (type : Fin n) :
    ∃ d, family.descend root depth trail type = some d ∧
      d.Explores root (Onward family trail type)
        (compileFields family fresh (.along trail) (family type).fields) := by
  induction depth generalizing trail fresh type with
  | zero => exact absurd hdepth (Nat.not_lt_zero _)
  | succ depth ih =>
    have hnested : ∀ field place optional record, field.kind = .nested optional record →
        ∃ d, family.enter root trail (family.descend root depth) ⟨place, field, optional, record⟩ =
            some d ∧
          d.Explores root (Onward family (trail ++ [⟨place, field, optional, record⟩]) record)
            (compileField family fresh (.along trail) field) := by
      intro field place optional record hkind
      rw [enter, compileField]
      simp only [hkind, List.contains_iff_mem, hfresh.mem_iff record]
      by_cases hmem : record ∈ chain root trail
      · rw [if_pos hmem, if_neg (not_not_intro hmem)]
        exact ⟨_, rfl, .stay fun _ hok => by cases hok⟩
      · rw [if_neg hmem, if_pos hmem]
        have hrecord := (hfresh.mem_iff record).mpr hmem
        have hlength := List.length_erase_of_mem hrecord
        have hpos := List.length_pos_of_mem hrecord
        have hchain : (chain root (trail ++ [⟨place, field, optional, record⟩])).Nodup := by
          rw [chain_append, List.nodup_append]
          refine ⟨hnodup, List.nodup_singleton _, fun a ha b hb heq => ?_⟩
          rw [heq, List.mem_singleton.mp hb] at ha
          exact hmem ha
        rw [show (Position.along trail).enter field optional =
          .along (trail ++ [⟨place, field, optional, record⟩]) from
            Position.enter_along trail ⟨place, field, optional, record⟩]
        have hroom : (fresh.erase record).length < depth := by omega
        exact ih (hfresh.enter _) hchain hroom record
    obtain ⟨below, hbelow, h⟩ := descendFields_explores (family type).fields 0
      fun field _ place => descendField_explores (hnested field place)
    rw [descend, hbelow, Option.map_some]
    refine ⟨_, rfl, h.result_eq, fun way hway => ?_, fun entries hr way hway => ?_⟩
    · rw [onward_iff]
      rcases List.mem_cons.mp hway with rfl | hway
      · exact ⟨.inl rfl, hnodup⟩
      · obtain ⟨⟨place, field, hfield, hthrough⟩, hnodup⟩ := h.entered way hway
        rw [Nat.zero_add] at hthrough
        exact ⟨.inr ⟨place, field, hfield, hthrough⟩, hnodup⟩
    · rcases onward_iff.mp hway with rfl | ⟨place, field, hfield, hthrough⟩
      · exact List.mem_cons_self
      · refine List.mem_cons_of_mem _ (h.all entries hr way ⟨place, field, hfield, ?_⟩)
        rwa [Nat.zero_add]

/-! ### What is refused -/

theorem compileLeaf_error {at_ : Position} {field : FieldSchema n} {shape : Shape}
    {directives : List Directive} {e : CompileError}
    (h : compileLeaf at_ field shape directives = .error e) :
    ∃ action parameter, e = .invalidParameter (at_.dotted field.name) action parameter := by
  induction directives with
  | nil => cases h
  | cons first rest ih =>
    rw [compileLeaf] at h
    cases hresolve : Parameter.resolve? first.action first.parameter with
    | none =>
      simp only [hresolve, Except.error.injEq] at h
      exact ⟨_, _, h.symm⟩
    | some parameter =>
      simp only [hresolve] at h
      cases hrest : compileLeaf at_ field shape rest with
      | error x =>
        simp only [hrest, Except.error.injEq] at h
        exact ih (hrest.trans (congrArg Except.error h))
      | ok later => simp [hrest] at h

/-- An error of fields is that of one of them. -/
theorem compileFields_error {fresh : List (Fin n)} {at_ : Position} {fields : List (FieldSchema n)}
    {e : CompileError} (h : compileFields family fresh at_ fields = .error e) :
    ∃ (place : Nat) (field : FieldSchema n), fields[place]? = some field ∧
      compileField family fresh at_ field = .error e := by
  induction fields with
  | nil =>
    rw [compileFields] at h
    cases h
  | cons field rest ih =>
    rw [compileFields_cons] at h
    cases hhere : compileField family fresh at_ field with
    | error x =>
      rw [hhere] at h
      cases h
      exact ⟨0, field, rfl, hhere⟩
    | ok entries =>
      cases hrest : compileFields family fresh at_ rest with
      | error x =>
        rw [hhere, hrest] at h
        cases h
        obtain ⟨place, other, hother, herror⟩ := ih hrest
        exact ⟨place + 1, other, hother, herror⟩
      | ok later =>
        rw [hhere, hrest] at h
        cases h

/-- A nested field on the ways of a range whose type is on the chain that leads to it. -/
def Recurs (family : Family n) (root : Fin n) (range : Site n → Prop) (name typeName : String) :
    Prop :=
  ∃ way step, range (.nested way step) ∧ step.record ∈ chain root way ∧
    name = (Position.along way).dotted step.field.name ∧ typeName = (family step.record).name

/-- What is refused as recursive has its own type on the chain that leads to it. -/
theorem recurs_of_compileFields {trail : List (Step n)} {fresh : List (Fin n)} {type : Fin n}
    {name typeName : String} (hfresh : Fresh root trail fresh)
    (h : compileFields family fresh (.along trail) (family type).fields =
      .error (.recursiveType name typeName)) :
    Recurs family root (Within family trail type) name typeName := by
  -- The types that can still be entered get fewer on the way down.
  induction hn : fresh.length using Nat.strongRecOn generalizing fresh trail type with
  | ind m ih =>
    obtain ⟨place, field, hfield, herror⟩ := compileFields_error h
    rw [compileField] at herror
    cases hkind : field.kind with
    | leaf shape directives =>
      simp only [hkind] at herror
      obtain ⟨_, _, he⟩ := compileLeaf_error herror
      cases he
    | nested optional record =>
      simp only [hkind] at herror
      by_cases hmem : record ∈ fresh
      · rw [if_pos (List.contains_iff_mem.mpr hmem),
          show (Position.along trail).enter field optional =
            .along (trail ++ [⟨place, field, optional, record⟩]) from
              Position.enter_along trail ⟨place, field, optional, record⟩] at herror
        have hlength := List.length_erase_of_mem hmem
        have hpos := List.length_pos_of_mem hmem
        have hshorter : (fresh.erase record).length < m := by omega
        obtain ⟨way, step, hsite, hrecurs⟩ :=
          ih _ hshorter (hfresh.enter ⟨place, field, optional, record⟩) herror rfl
        exact ⟨way, step, within_iff.mpr ⟨place, field, hfield, .below hkind hsite⟩, hrecurs⟩
      · rw [if_neg fun hc => hmem (List.contains_iff_mem.mp hc)] at herror
        cases herror
        refine ⟨trail, ⟨place, field, optional, record⟩,
          within_iff.mpr ⟨place, field, hfield, .nested hkind⟩, ?_, rfl, rfl⟩
        exact by_contra fun hnot => hmem ((hfresh.mem_iff record).mpr hnot)

/-! ### Compilation -/

/-- **Compilation ends on every family of types, and goes down no further than there are types.** The
descent that knows the chain alone comes to its end with as many records open at a time as there are
types, or more, and has the result of compilation. No type comes twice on a way that it enters, and if it
does not fail it enters every way, however often the ways lead to one type. Where a nested record is
refused as recursive, its type is among those on the way that leads to it. -/
theorem compile_ends (family : Family n) (root : Fin n) :
    (∃ ways,
      (∀ depth, n ≤ depth → family.descend root depth [] root =
        some ⟨ways, (PlanSet.compile family root).map PlanSet.entries⟩) ∧
      (∀ way ∈ ways, (∃ last, Way family root way last) ∧ (chain root way).Nodup ∧
        (chain root way).length ≤ n) ∧
      ∀ plans, PlanSet.compile family root = .ok plans →
        ∀ way last, Way family root way last → way ∈ ways) ∧
    ∀ name typeName, PlanSet.compile family root = .error (.recursiveType name typeName) →
      ∃ (way : List (Step n)) (last : Fin n) (step : Step n), Way family root way last ∧
        step.Of (family last).fields ∧ step.record ∈ chain root way ∧
        name = (Position.along way).dotted step.field.name ∧ typeName = (family step.record).name := by
  have hcompile : (PlanSet.compile family root).map PlanSet.entries =
      compileFields family ((List.finRange n).erase root) (.along ([] : List (Step n)))
        (family root).fields := by
    rw [PlanSet.compile, Position.along_nil]
    cases compileFields family ((List.finRange n).erase root) .root (family root).fields <;> rfl
  have hfresh := Fresh.start root
  constructor
  · have hroom : ((List.finRange n).erase root).length < n := by
      rw [List.length_erase_of_mem (List.mem_finRange root), List.length_finRange]
      exact Nat.sub_lt root.pos Nat.one_pos
    obtain ⟨⟨ways, result⟩, hdescend, h⟩ := family.descend_explores hfresh (by simp [chain]) hroom root
    obtain rfl : result = (PlanSet.compile family root).map PlanSet.entries :=
      h.result_eq.trans hcompile.symm
    refine ⟨ways, fun depth hdepth => family.descend_of_le hdescend hdepth, fun way hway => ?_, ?_⟩
    · obtain ⟨⟨rest, last, rfl, hrest⟩, hnodup⟩ := h.entered way hway
      exact ⟨⟨last, hrest⟩, hnodup, by simpa using hnodup.length_le_card⟩
    · intro plans hplans way last hway
      exact h.all plans.entries (by rw [← hcompile, hplans]; rfl) way ⟨way, last, rfl, hway⟩
  · intro name typeName herror
    rw [herror] at hcompile
    obtain ⟨way, step, hsite, hrecurs⟩ := recurs_of_compileFields hfresh hcompile.symm
    obtain ⟨last, hway, hat⟩ := within_nil_iff.mp hsite
    cases hat with
    | nested hstep => exact ⟨way, last, step, hway, hstep, hrecurs⟩

/-- A crate holds two bags, and a bag perhaps another. -/
def Sample.crates : Family 2
  | 0 => ⟨"Crate", [⟨0, "left", .nested false (.last 1)⟩, ⟨1, "right", .nested false (.last 1)⟩]⟩
  | 1 => ⟨"Bag", [⟨0, "label", .leaf .text [⟨.mask, "name"⟩]⟩, ⟨1, "inner", .nested true (.last 1)⟩]⟩

open Sample in
/-- A crate is refused for the bag in its left bag; a form is not refused for having tags twice. -/
theorem crates_end :
    (∃ ways, ∀ depth, 2 ≤ depth → crates.descend formRoot depth [] formRoot =
      some ⟨ways, .error (.recursiveType "left.inner" "Bag")⟩) ∧
    (∃ (way : List (Step 2)) (last : Fin 2) (step : Step 2), Way crates formRoot way last ∧
      step.Of (crates last).fields ∧ step.record ∈ chain formRoot way ∧
      "Bag" = (crates step.record).name) ∧
    ∃ ways, (∀ depth, 2 ≤ depth → formFamily.descend formRoot depth [] formRoot =
      some ⟨ways, .ok formPlanSet.entries⟩) ∧ ways.length = 3 := by
  have hcrates : PlanSet.compile crates formRoot = .error (.recursiveType "left.inner" "Bag") := by cbv
  have hform : PlanSet.compile formFamily formRoot = .ok formPlanSet := by cbv
  obtain ⟨⟨ways, hends, -, -⟩, hrecurs⟩ := compile_ends crates formRoot
  obtain ⟨way, last, step, hway, hstep, hmem, -, hname⟩ := hrecurs _ _ hcrates
  obtain ⟨⟨ways', hends', -, -⟩, -⟩ := compile_ends formFamily formRoot
  rw [hcrates] at hends
  rw [hform] at hends'
  refine ⟨⟨ways, hends⟩, ⟨way, last, step, hway, hstep, hmem, hname⟩, ways', hends', ?_⟩
  have hlength : ((formFamily.descend formRoot 2 [] formRoot).map fun d => d.ways.length) =
    some 3 := by rfl
  rw [hends' 2 le_rfl] at hlength
  exact Option.some.inj hlength

end RecordPrivacy
