import RecordPrivacy.Record

/-! Leaves by their paths.

A record read as a content of its own is walked along a path by `at?`, and `replaceAt` puts another
leaf at a path that ends in one. The laws are those of reading and writing at a place: what was
written is read back (`at?_replaceAt_self`), the rest of the record is as it was
(`surface_replaceAt`), the last of two writes at one path wins (`replaceAt_replaceAt`), writes at
two paths do not disturb each other (`replaceAt_comm`), and writing what is there changes nothing
(`replaceAt_of_at?`). `resolve?` and `replace` are these two functions on records. -/
namespace RecordPrivacy

/-! ### One index -/

namespace Record

theorem content?_cons (i j : Nat) (held : Content) (rest : Record) :
    content? ((i, held) :: rest) j = if i = j then some held else content? rest j := by
  unfold content?
  rw [List.lookup_cons]
  by_cases h : i = j
  · simp [h]
  · have hne : (j == i) = false := beq_eq_false_iff_ne.mpr (Ne.symm h)
    simp [h, hne]

/-- Changes the content at an index. -/
def modify : Record → Nat → (Content → Content) → Record
  | [], _, _ => []
  | (i, held) :: rest, index, f =>
    if i = index then (i, f held) :: rest else (i, held) :: modify rest index f

theorem modify_of_content? (record : Record) (i : Nat) (f : Content → Content)
    (h : ∀ content, content? record i = some content → f content = content) :
    modify record i f = record := by
  induction record with
  | nil => rfl
  | cons entry rest ih =>
    obtain ⟨k, held⟩ := entry
    by_cases hk : k = i
    · have hf : f held = held := h held (by simp [content?_cons, hk])
      simp [modify, hk, hf]
    · have hrest := ih fun content hc => h content (by simpa [content?_cons, hk] using hc)
      simp [modify, hk, hrest]

theorem modify_eq_put {record : Record} {index : Nat} {content : Content}
    (f : Content → Content) (h : content? record index = some content) :
    modify record index f = record.put index (f content) := by
  induction record with
  | nil => simp [content?] at h
  | cons entry rest ih =>
    obtain ⟨k, held⟩ := entry
    by_cases hk : k = index
    · have hheld : held = content := by simpa [content?_cons, hk] using h
      simp [modify, put, hk, hheld]
    · simp [modify, put, hk, ih (by simpa [content?_cons, hk] using h)]

theorem put_of_content? {record : Record} {index : Nat} {content : Content}
    (h : content? record index = some content) : record.put index content = record := by
  rw [← modify_eq_put (fun held => held) h]
  exact modify_of_content? record index _ fun _ _ => rfl

theorem content?_modify (record : Record) (i j : Nat) (f : Content → Content) :
    content? (modify record i f) j =
      if i = j then (content? record j).map f else content? record j := by
  induction record with
  | nil => simp [modify, content?]
  | cons entry rest ih =>
    obtain ⟨k, held⟩ := entry
    by_cases hi : k = i
    · subst hi
      by_cases hj : k = j <;> simp [modify, content?_cons, hj]
    · by_cases hj : k = j
      · subst hj
        simp [modify, content?_cons, hi, Ne.symm hi]
      · simp [modify, content?_cons, hi, hj, ih]

theorem modify_modify (record : Record) (i : Nat) (f g : Content → Content) :
    modify (modify record i f) i g = modify record i fun content => g (f content) := by
  induction record with
  | nil => rfl
  | cons entry rest ih =>
    obtain ⟨k, held⟩ := entry
    by_cases hk : k = i <;> simp [modify, hk, ih]

theorem modify_comm (record : Record) (i j : Nat) (f g : Content → Content) (h : i ≠ j) :
    modify (modify record i f) j g = modify (modify record j g) i f := by
  induction record with
  | nil => rfl
  | cons entry rest ih =>
    obtain ⟨k, held⟩ := entry
    by_cases hi : k = i
    · subst hi
      simp [modify, h]
    · by_cases hj : k = j
      · subst hj
        simp [modify, hi]
      · simp [modify, hi, hj, ih]

end Record

/-! ### Walking along a path -/

namespace Content

/-- The content at the end of a path. -/
def at? : Content → List Nat → Option Content
  | content, [] => some content
  | content, i :: rest =>
    (content.inner?.bind fun fields => Record.content? fields i).bind fun inner => at? inner rest

/-- Changes the record inside, if there is one. -/
def overInner (f : Record → Record) : Content → Content
  | .record fields => .record (f fields)
  | .optional (some fields) => .optional (some (f fields))
  | other => other

def replaceLeaf (new : Leaf) : Content → Content
  | .leaf _ => .leaf new
  | other => other

/-- Puts another leaf at the end of a path that ends in one. -/
def replaceAt : Content → List Nat → Leaf → Content
  | content, [], new => replaceLeaf new content
  | content, i :: rest, new =>
    overInner (fun fields => Record.modify fields i fun inner => replaceAt inner rest new) content

/-- The content by itself: a nested record counts as present or absent, whatever it holds. -/
def surface : Content → Content
  | .leaf value => .leaf value
  | .record _ => .record []
  | .optional fields => .optional (fields.map fun _ => [])
  | .hidden data => .hidden data

@[simp] theorem inner?_overInner (f : Record → Record) (content : Content) :
    (overInner f content).inner? = content.inner?.map f := by
  cases content with
  | optional fields => cases fields <;> rfl
  | _ => rfl

@[simp] theorem surface_overInner (f : Record → Record) (content : Content) :
    (overInner f content).surface = content.surface := by
  cases content with
  | optional fields => cases fields <;> rfl
  | _ => rfl

theorem overInner_overInner (f g : Record → Record) (content : Content) :
    overInner g (overInner f content) = overInner (fun fields => g (f fields)) content := by
  cases content with
  | optional fields => cases fields <;> rfl
  | _ => rfl

theorem overInner_of_inner? (f : Record → Record) (content : Content)
    (h : ∀ fields, content.inner? = some fields → f fields = fields) :
    overInner f content = content := by
  cases content with
  | record fields => simp [overInner, h fields rfl]
  | optional fields =>
    cases fields with
    | none => rfl
    | some fields => simp [overInner, h fields rfl]
  | _ => rfl

@[simp] theorem leaf?_surface (content : Content) : content.surface.leaf? = content.leaf? := by
  cases content <;> rfl

/-! ### Reading after writing -/

/-- Only where a path goes on into the same index does a write below show. -/
theorem at?_replaceAt_cons (content : Content) (i j : Nat) (p q : List Nat) (new : Leaf) :
    (content.replaceAt (i :: p) new).at? (j :: q) =
      if i = j then
        (content.inner?.bind fun fields => Record.content? fields j).bind fun inner =>
          (inner.replaceAt p new).at? q
      else content.at? (j :: q) := by
  simp only [replaceAt, at?, inner?_overInner]
  cases content.inner? with
  | none => simp
  | some fields =>
    simp only [Option.map_some, Option.bind_some, Record.content?_modify]
    by_cases h : i = j
    · simp only [h, if_true]
      cases Record.content? fields j <;> rfl
    · simp only [h, if_false]

theorem at?_replaceAt_self {content : Content} {path : List Nat} {old : Leaf} (new : Leaf)
    (h : content.at? path = some (.leaf old)) :
    (content.replaceAt path new).at? path = some (.leaf new) := by
  induction path generalizing content with
  | nil =>
    cases h
    rfl
  | cons i path ih =>
    rw [at?_replaceAt_cons, if_pos rfl]
    simp only [at?] at h
    obtain ⟨inner, hinner, hleaf⟩ := Option.bind_eq_some_iff.mp h
    rw [hinner]
    exact ih hleaf

/-- A write shows nowhere but at its own path. -/
theorem surface_replaceAt (content : Content) (p q : List Nat) (new : Leaf) (h : p ≠ q) :
    ((content.replaceAt p new).at? q).map surface = (content.at? q).map surface := by
  induction p generalizing content q with
  | nil =>
    cases q with
    | nil => exact absurd rfl h
    | cons j q => cases content <;> rfl
  | cons i p ih =>
    cases q with
    | nil => simp [replaceAt, at?]
    | cons j q =>
      rw [at?_replaceAt_cons]
      by_cases hij : i = j
      · subst hij
        rw [if_pos rfl]
        simp only [at?]
        cases content.inner?.bind fun fields => Record.content? fields i with
        | none => rfl
        | some inner => exact ih inner q fun he => h (by rw [he])
      · rw [if_neg hij]

/-! ### Writing twice -/

theorem replaceAt_replaceAt (content : Content) (path : List Nat) (a b : Leaf) :
    (content.replaceAt path a).replaceAt path b = content.replaceAt path b := by
  induction path generalizing content with
  | nil => cases content <;> rfl
  | cons i path ih => simp only [replaceAt, overInner_overInner, Record.modify_modify, ih]

theorem replaceAt_comm (content : Content) (p q : List Nat) (a b : Leaf) (h : p ≠ q) :
    (content.replaceAt p a).replaceAt q b = (content.replaceAt q b).replaceAt p a := by
  induction p generalizing content q with
  | nil =>
    cases q with
    | nil => exact absurd rfl h
    | cons j q => cases content with
      | optional fields => cases fields <;> rfl
      | _ => rfl
  | cons i p ih =>
    cases q with
    | nil => cases content with
      | optional fields => cases fields <;> rfl
      | _ => rfl
    | cons j q =>
      simp only [replaceAt, overInner_overInner]
      by_cases hij : i = j
      · subst hij
        simp only [Record.modify_modify, ih _ q fun he => h (by rw [he])]
      · congr 1
        funext fields
        exact Record.modify_comm fields i j _ _ hij

theorem replaceAt_of_at? {content : Content} {path : List Nat} {old : Leaf}
    (h : content.at? path = some (.leaf old)) : content.replaceAt path old = content := by
  induction path generalizing content with
  | nil =>
    cases h
    rfl
  | cons i path ih =>
    refine overInner_of_inner? _ _ fun fields hfields => ?_
    refine Record.modify_of_content? _ _ _ fun inner hinner => ?_
    apply ih
    simpa only [at?, hfields, hinner, Option.bind_some] using h

end Content

/-! ### The record's own view -/

namespace Record

theorem resolve?_eq (record : Record) (path : List Nat) :
    record.resolve? path = ((Content.record record).at? path).bind Content.leaf? := by
  induction path generalizing record with
  | nil => rfl
  | cons i path ih =>
    simp only [Content.at?, Content.inner?, Option.bind_some]
    cases path with
    | nil => cases h : content? record i <;> simp [resolve?, Content.at?, h]
    | cons j path =>
      cases h : content? record i with
      | none => simp [resolve?, h]
      | some content =>
        cases hi : content.inner? with
        | none => simp [resolve?, Content.at?, h, hi]
        | some inner =>
          simp only [resolve?, h, Option.bind_some, hi, ih inner, Content.at?]
          rfl

theorem record_replace (record : Record) (path : List Nat) (leaf : Leaf) :
    Content.record (record.replace path leaf) = (Content.record record).replaceAt path leaf := by
  induction path generalizing record with
  | nil => rfl
  | cons i path ih =>
    simp only [Content.replaceAt, Content.overInner, Content.record.injEq]
    cases h : content? record i with
    | none =>
      rw [modify_of_content? record i _ fun content hc => by rw [h] at hc; cases hc]
      cases path <;> simp [replace, h]
    | some content =>
      rw [modify_eq_put _ h]
      cases path with
      | nil =>
        cases content with
        | leaf old => simp [replace, h, Content.replaceAt, Content.replaceLeaf]
        | _ => simp [replace, h, Content.replaceAt, Content.replaceLeaf, put_of_content? h]
      | cons j path =>
        simp only [replace, h]
        cases content with
        | record fields =>
          rw [← ih fields]
          rfl
        | optional fields =>
          cases fields with
          | none => exact (put_of_content? h).symm
          | some fields =>
            have hinner := ih fields
            simp only [Content.replaceAt, Content.overInner, Content.record.injEq] at hinner
            simp [Content.inner?, Content.withInner, Content.replaceAt, Content.overInner, hinner]
        | _ => exact (put_of_content? h).symm

/-- Puts other leaves at several paths, one after the other. -/
def replaceAll (record : Record) (changes : List (List Nat × Leaf)) : Record :=
  changes.foldl (fun record change => record.replace change.1 change.2) record

/-- The content at the end of a path; the empty path ends at the record itself. -/
def at? (record : Record) (path : List Nat) : Option Content :=
  (Content.record record).at? path

theorem resolve?_eq_some_iff {record : Record} {path : List Nat} {leaf : Leaf} :
    record.resolve? path = some leaf ↔ at? record path = some (.leaf leaf) := by
  rw [resolve?_eq, at?, Option.bind_eq_some_iff]
  constructor
  · intro h
    obtain ⟨content, hc, hl⟩ := h
    cases content <;> simp_all [Content.leaf?]
  · intro h
    exact ⟨_, h, rfl⟩

theorem resolve?_replace_self {record : Record} {path : List Nat} {old : Leaf} (new : Leaf)
    (h : record.resolve? path = some old) : (record.replace path new).resolve? path = some new := by
  rw [resolve?_eq_some_iff] at h ⊢
  rw [at?, record_replace]
  exact Content.at?_replaceAt_self new h

theorem surface_replace (record : Record) (p q : List Nat) (new : Leaf) (h : p ≠ q) :
    (at? (record.replace p new) q).map Content.surface = (at? record q).map Content.surface := by
  rw [at?, record_replace]
  exact Content.surface_replaceAt _ p q new h

theorem resolve?_of_surface {a b : Record} {path : List Nat}
    (h : (at? a path).map Content.surface = (at? b path).map Content.surface) :
    a.resolve? path = b.resolve? path := by
  have hleaf : ∀ r : Record,
      r.resolve? path = ((at? r path).map Content.surface).bind Content.leaf? := by
    intro r
    rw [resolve?_eq, at?]
    cases (Content.record r).at? path <;> simp
  rw [hleaf a, hleaf b, h]

theorem resolve?_replace_ne (record : Record) (p q : List Nat) (new : Leaf) (h : p ≠ q) :
    (record.replace p new).resolve? q = record.resolve? q :=
  resolve?_of_surface (surface_replace record p q new h)

theorem replace_replace (record : Record) (path : List Nat) (a b : Leaf) :
    (record.replace path a).replace path b = record.replace path b := by
  apply Content.record.inj
  simp only [record_replace, Content.replaceAt_replaceAt]

theorem replace_comm (record : Record) (p q : List Nat) (a b : Leaf) (h : p ≠ q) :
    (record.replace p a).replace q b = (record.replace q b).replace p a := by
  apply Content.record.inj
  simp only [record_replace, Content.replaceAt_comm _ p q a b h]

theorem replace_of_resolve? {record : Record} {path : List Nat} {old : Leaf}
    (h : record.resolve? path = some old) : record.replace path old = record := by
  apply Content.record.inj
  rw [record_replace]
  exact Content.replaceAt_of_at? (resolve?_eq_some_iff.mp h)

/-! ### Many writes at distinct paths -/

@[simp] theorem replaceAll_nil (record : Record) : record.replaceAll [] = record := rfl

@[simp] theorem replaceAll_cons (record : Record) (path : List Nat) (leaf : Leaf)
    (changes : List (List Nat × Leaf)) :
    record.replaceAll ((path, leaf) :: changes) = (record.replace path leaf).replaceAll changes :=
  rfl

/-- Writes show at none but their own paths. -/
theorem surface_replaceAll (record : Record) (changes : List (List Nat × Leaf)) (path : List Nat)
    (h : path ∉ changes.map Prod.fst) :
    (at? (record.replaceAll changes) path).map Content.surface =
      (at? record path).map Content.surface := by
  induction changes generalizing record with
  | nil => rfl
  | cons change changes ih =>
    obtain ⟨p, new⟩ := change
    simp only [List.map_cons, List.mem_cons, not_or] at h
    rw [replaceAll_cons, ih _ h.2, surface_replace record p path new (Ne.symm h.1)]

theorem resolve?_replaceAll_of_mem {record : Record} {changes : List (List Nat × Leaf)}
    {path : List Nat} {old new : Leaf} (distinct : (changes.map Prod.fst).Nodup)
    (h : record.resolve? path = some old) (hmem : (path, new) ∈ changes) :
    (record.replaceAll changes).resolve? path = some new := by
  induction changes generalizing record old with
  | nil => cases hmem
  | cons change changes ih =>
    obtain ⟨p, leaf⟩ := change
    simp only [List.map_cons, List.nodup_cons] at distinct
    rw [replaceAll_cons]
    rcases List.mem_cons.mp hmem with he | hmem
    · cases he
      rw [resolve?_of_surface (surface_replaceAll _ changes path distinct.1)]
      exact resolve?_replace_self new h
    · have hne : p ≠ path := fun he => distinct.1 (he ▸ List.mem_map_of_mem (f := Prod.fst) hmem)
      exact ih distinct.2 (by rw [resolve?_replace_ne record p path leaf hne, h]) hmem

/-- A write that is overwritten later leaves no trace. -/
theorem replaceAll_replace_of_mem (record : Record) (path : List Nat) (leaf : Leaf)
    (changes : List (List Nat × Leaf)) (h : path ∈ changes.map Prod.fst) :
    (record.replace path leaf).replaceAll changes = record.replaceAll changes := by
  induction changes generalizing record with
  | nil => cases h
  | cons change changes ih =>
    obtain ⟨p, new⟩ := change
    rw [replaceAll_cons, replaceAll_cons]
    by_cases hp : p = path
    · rw [hp, replace_replace]
    · have hmem : path ∈ changes.map Prod.fst :=
        (List.mem_cons.mp h).resolve_left (Ne.symm hp)
      rw [replace_comm record path p leaf new (Ne.symm hp), ih _ hmem]

/-- Writing the leaves of a record over whatever was written at their paths gives the record
back. -/
theorem replaceAll_restore (record : Record) (changes originals : List (List Nat × Leaf))
    (covers : ∀ path ∈ changes.map Prod.fst, path ∈ originals.map Prod.fst)
    (original : ∀ change ∈ originals, record.resolve? change.1 = some change.2) :
    (record.replaceAll changes).replaceAll originals = record := by
  have hsame : record.replaceAll originals = record := by
    clear covers
    induction originals with
    | nil => rfl
    | cons change originals ih =>
      obtain ⟨p, leaf⟩ := change
      rw [replaceAll_cons, replace_of_resolve? (original (p, leaf) List.mem_cons_self)]
      exact ih fun change hc => original change (List.mem_cons_of_mem _ hc)
  suffices h : ∀ start : Record, (start.replaceAll changes).replaceAll originals =
      start.replaceAll originals by rw [h, hsame]
  induction changes with
  | nil => exact fun _ => rfl
  | cons change changes ih =>
    intro start
    obtain ⟨p, leaf⟩ := change
    simp only [List.map_cons, List.mem_cons, forall_eq_or_imp] at covers
    rw [replaceAll_cons, ih covers.2, replaceAll_replace_of_mem _ _ _ _ covers.1]

end Record

end RecordPrivacy
