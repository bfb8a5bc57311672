import DaoGen.Program.OfSources
import DaoGen.Proofs.Source.Names
import DaoGen.Schema.Walk
set_option autoImplicit false

/-!
# The imports of an id type

What a name stands for in a file depends on one binding of the file: the one of the name
itself, or of what stands before its last dot (`identityOf_eq`).  A request asks for that
binding under the same local name, so the requests of all names of a type agree with each
other and with the file, and a module that imports them and nothing else reads the names in
the same way (`requests_keep_references`).
-/

namespace DaoGen

open DaoGen.Text (cutFirst cutLast eq_of_cutFirst eq_of_cutLast cutFirst_eq_none_iff
  cutLast_eq_none_iff)

/-! ## Requests as bindings -/

/-- What a module binds the local name of a request to. -/
def ImportRequest.binding (r : ImportRequest) : Binding :=
  if r.exported = wholeModule then .whole r.home else .named r.home r.exported

/-- The import bindings of a module that imports some requests. -/
def ImportMap.ofRequests (requests : List ImportRequest) : ImportMap :=
  requests.foldl (fun m r => m.insert r.localName r.binding) {}

/-- Requests that bind a local name to one thing are the same. -/
theorem ImportRequest.eq_of_binding_eq {r s : ImportRequest} (hlocal : r.localName = s.localName)
    (hbinding : r.binding = s.binding) : r = s := by
  obtain ⟨home, exported, localName⟩ := r
  obtain ⟨home', exported', localName'⟩ := s
  obtain rfl : localName = localName' := hlocal
  unfold binding at hbinding
  dsimp only at hbinding
  split at hbinding <;> split at hbinding
  · rename_i hwhole hwhole'
    rw [Binding.whole.inj hbinding, hwhole, hwhole']
  · cases hbinding
  · cases hbinding
  · obtain ⟨rfl, rfl⟩ := Binding.named.inj hbinding
    rfl

/-! ## What a name is bound to in a file -/

/-- What a name may be bound to: to a module as a whole if it has no dot, and to an exported
name that does not stand for whole modules. -/
def Binding.Suits (name : String) : Binding → Prop
  | whole _ => '.' ∉ name.toList
  | named _ exported => exported ≠ wholeModule

namespace ScannedFile

/-- What a file binds a name to: what it imports under the name, or what it declares. -/
def binding? (f : ScannedFile) (name : String) : Option Binding :=
  match f.imports.get? name with
  | some b => some b
  | none => if f.declared.contains name then some (.named (.file f.stem) name) else none

/-- A file in which no dotted name is bound to a whole module, and nothing else goes by the
name that stands for whole modules. -/
structure WellNamed (f : ScannedFile) : Prop where
  imported : ∀ name b, f.imports.get? name = some b → b.Suits name
  declared : ∀ name ∈ f.declared, name ≠ wholeModule

variable {f : ScannedFile} {name exported : String} {home : ModuleName}

theorem WellNamed.ne_of_binding? (h : f.WellNamed)
    (hbinding : f.binding? name = some (.named home exported)) : exported ≠ wholeModule := by
  unfold binding? at hbinding
  split at hbinding
  · rename_i b hget
    obtain rfl := Option.some.inj hbinding
    exact h.imported name _ hget
  · split at hbinding
    · rename_i hdeclared
      obtain ⟨-, rfl⟩ := Binding.named.inj (Option.some.inj hbinding)
      exact h.declared name (by simpa using hdeclared)
    · cases hbinding

theorem binding?_eq_whole_iff :
    f.binding? name = some (.whole home) ↔ f.imports.get? name = some (.whole home) := by
  unfold binding?
  split
  · rename_i b hget
    rw [hget]
  · rename_i hget
    rw [hget]
    split <;> simp

theorem binding?_of_declares_nothing (h : f.declared = []) :
    f.binding? name = f.imports.get? name := by
  unfold binding?
  rw [h]
  split
  · rename_i b hget
    rw [hget]
  · rename_i hget
    rw [hget]
    rfl

end ScannedFile

/-! ## Files that are read -/

/-- The bindings of a file suit their names when each of its imports does. -/
theorem ImportMap.suits_of_get?_ofImports {dir : Path} {imports : List Source.Import}
    (h : ∀ i ∈ imports, ∀ n ∈ i.names, n.name = wholeModule → '.' ∉ n.localName.toList) :
    ∀ name b, (ofImports dir imports).get? name = some b → b.Suits name := by
  unfold ofImports
  refine List.foldlRecOn imports _
    (motive := fun m : ImportMap => ∀ name b, m.get? name = some b → b.Suits name)
    (fun _ _ hnone => by cases hnone) fun m hm i hi => ?_
  refine List.foldlRecOn i.names _
    (motive := fun m : ImportMap => ∀ name b, m.get? name = some b → b.Suits name)
    hm fun m hm n hn name b hget => ?_
  rw [get?_insert] at hget
  split at hget
  · rename_i heq
    rw [heq, ← Option.some.inj hget]
    split
    · rename_i hwhole
      exact h i hi n hn hwhole
    · rename_i hnamed
      exact hnamed
  · exact hm name b hget

theorem ScannedFile.wellNamed_ofSource {f : Source.SourceFile} (h : f.WellNamed) :
    (ofSource f).WellNamed :=
  ⟨ImportMap.suits_of_get?_ofImports h.imported, h.declared⟩

namespace Program

variable {p q : Program} {file other : FileId}

theorem wellNamed_fileAt_ofSources {dir : Path} {files : List Source.SourceFile}
    (h : ∀ f ∈ files, f.WellNamed) (file : FileId) :
    ((ofSources dir files).fileAt file).WellNamed := by
  have hfiles : (ofSources dir files).files = files.map .ofSource := rfl
  unfold fileAt
  rw [hfiles, List.getElem?_map]
  cases hfile : files[file]? with
  | none =>
    refine ⟨fun _ _ hnone => ?_, fun _ hnone => ?_⟩ <;> cases hnone
  | some f => exact ScannedFile.wellNamed_ofSource (h f (List.mem_of_getElem? hfile))

/-! ## What names stand for -/

/-- The name whose binding decides what a written name stands for: the name itself, or what
stands before its last dot. -/
def scopeOf (written : String) : String :=
  match cutLast '.' written.toList with
  | some (qualifier, _) => String.ofList qualifier
  | none => written

/-- What a written name stands for when the name that decides is bound so. -/
def identityIn (written : String) (b : Option Binding) : Option Identity :=
  match cutLast '.' written.toList, b with
  | some (_, name), some (.whole home) => some ⟨home, String.ofList name⟩
  | none, some (.named home name) => some ⟨home, name⟩
  | _, _ => none

/-- What a name stands for depends on one binding of the file. -/
theorem identityOf_eq (p : Program) (file : FileId) (written : String) :
    p.identityOf file written = identityIn written ((p.fileAt file).binding? (scopeOf written)) := by
  rw [identityOf_def]
  unfold ScannedFile.identityOf identityIn scopeOf ScannedFile.binding?
  cases cutLast '.' written.toList with
  | some cut =>
    obtain ⟨qualifier, name⟩ := cut
    dsimp only
    cases hget : (p.fileAt file).imports.get? (String.ofList qualifier) with
    | some b => cases b <;> rfl
    | none => cases (p.fileAt file).declared.contains (String.ofList qualifier) <;> rfl
  | none =>
    dsimp only
    cases hget : (p.fileAt file).imports.get? written with
    | some b => cases b <;> rfl
    | none => cases (p.fileAt file).declared.contains written <;> rfl

theorem identityIn_none (written : String) : identityIn written none = none := by
  unfold identityIn
  cases cutLast '.' written.toList <;> rfl

/-! ## What requests ask for -/

theorem cutFirst_append {sep : Char} {before : List Char} (h : sep ∉ before) (after : List Char) :
    cutFirst sep (before ++ sep :: after) = some (before, after) := by
  induction before with
  | nil => simp [cutFirst]
  | cons c rest ih =>
    rw [List.mem_cons, not_or] at h
    rw [List.cons_append, cutFirst, if_neg (Ne.symm h.1), ih h.2, Option.map_some]

variable {written : String} {r : ImportRequest} {i : Identity}

/-- A request asks for what the file binds its local name to. -/
theorem binding?_of_importRequest (h : (p.fileAt file).WellNamed)
    (hr : p.importRequest file written = some r) :
    (p.fileAt file).binding? r.localName = some r.binding := by
  rw [importRequest, ScannedFile.importRequest] at hr
  split at hr
  · split at hr
    · rename_i home hget
      obtain rfl := Option.some.inj hr
      exact ScannedFile.binding?_eq_whole_iff.2 hget
    · cases hr
  · rename_i hfirst
    have hlast : cutLast '.' written.toList = none :=
      cutLast_eq_none_iff.2 (cutFirst_eq_none_iff.1 hfirst)
    obtain ⟨i, hi, rfl⟩ := Option.map_eq_some_iff.1 hr
    rw [← identityOf_def, identityOf_eq] at hi
    unfold identityIn scopeOf at hi
    rw [hlast] at hi
    dsimp only at hi
    split at hi
    · rename_i heq _
      cases heq
    · rename_i home name _ hbinding
      obtain rfl := Option.some.inj hi
      rw [hbinding]
      unfold ImportRequest.binding
      rw [if_neg (h.ne_of_binding? hbinding)]
    · cases hi

/-- A name that stands for something is asked for under the name that decides. -/
theorem exists_importRequest_of_identityOf (h : (p.fileAt file).WellNamed)
    (hi : p.identityOf file written = some i) :
    ∃ r, p.importRequest file written = some r ∧ r.localName = scopeOf written := by
  rw [importRequest, ScannedFile.importRequest]
  cases hlast : cutLast '.' written.toList with
  | none =>
    have hfirst : cutFirst '.' written.toList = none :=
      cutFirst_eq_none_iff.2 (cutLast_eq_none_iff.1 hlast)
    rw [hfirst, ← identityOf_def, hi]
    unfold scopeOf
    rw [hlast]
    exact ⟨_, rfl, rfl⟩
  | some cut =>
    obtain ⟨qualifier, name⟩ := cut
    rw [identityOf_eq] at hi
    unfold identityIn at hi
    unfold scopeOf at hi ⊢
    rw [hlast] at hi ⊢
    dsimp only at hi ⊢
    split at hi
    · rename_i home heq hbinding
      have hget := ScannedFile.binding?_eq_whole_iff.1 hbinding
      have hplain : '.' ∉ qualifier := by
        have hdot : '.' ∉ (String.ofList qualifier).toList := h.imported _ _ hget
        rwa [String.toList_ofList] at hdot
      -- the only dot of the name is its first and its last one
      rw [(eq_of_cutLast hlast).1, cutFirst_append hplain]
      dsimp only
      rw [hget]
      exact ⟨_, rfl, rfl⟩
    · rename_i heq _
      cases heq
    · cases hi

end Program

/-! ## The requests of a type -/

namespace Schema

variable {p q : Program} {file other : FileId}

theorem head?_dropRepeats (r : ImportRequest) (rest : List ImportRequest) :
    (IdType.dropRepeats (r :: rest)).head? = some r := by
  cases rest with
  | nil => rfl
  | cons s rest =>
    unfold IdType.dropRepeats
    split
    · split <;> rfl
    · rfl

/-- Dropping repetitions keeps all requests when no two different ones count as the same. -/
theorem mem_dropRepeats {requests : List ImportRequest}
    (h : ∀ r ∈ requests, ∀ s ∈ requests, r == s → r = s) {r : ImportRequest} :
    r ∈ IdType.dropRepeats requests ↔ r ∈ requests := by
  fun_induction IdType.dropRepeats requests with
  | case1 => rfl
  | case2 => rfl
  | case3 first second rest _ hnil =>
    have hhead := head?_dropRepeats second rest
    rw [hnil] at hhead
    cases hhead
  | case4 first second rest hsame head more hmore ih =>
    have hfirst : first = second :=
      h first List.mem_cons_self second (List.mem_cons_of_mem _ List.mem_cons_self) hsame
    have hhead := head?_dropRepeats second rest
    rw [hmore] at hhead
    obtain rfl : head = second := Option.some.inj hhead
    have hrest := ih fun r hr s hs =>
      h r (List.mem_cons_of_mem _ hr) s (List.mem_cons_of_mem _ hs)
    rw [hmore] at hrest
    subst hfirst
    rw [hrest]
    simp only [List.mem_cons, or_self_left]
  | case5 first second rest _ ih =>
    rw [List.mem_cons, List.mem_cons, ih fun r hr s hs =>
      h r (List.mem_cons_of_mem _ hr) s (List.mem_cons_of_mem _ hs)]

/-- Requests that ask for what a file binds their local name to are told apart by that name. -/
theorem eq_of_localName_eq {f : ScannedFile} {r s : ImportRequest}
    (hr : f.binding? r.localName = some r.binding) (hs : f.binding? s.localName = some s.binding)
    (hlocal : r.localName = s.localName) : r = s := by
  rw [hlocal, hs] at hr
  exact ImportRequest.eq_of_binding_eq hlocal (Option.some.inj hr).symm

/-- The requests of a type are those of its names. -/
theorem mem_requestsOf (h : (p.fileAt file).WellNamed) {references : List String}
    {r : ImportRequest} :
    r ∈ IdType.requestsOf (p.fileAt file) references ↔
      ∃ name ∈ references, p.importRequest file name = some r := by
  have hmem : ∀ r, r ∈ sortBy (fun a b => (compare a b).isLE)
      (references.filterMap (p.fileAt file).importRequest) ↔
        ∃ name ∈ references, p.importRequest file name = some r := fun r => by
    rw [mem_sortBy, List.mem_filterMap]
    rfl
  unfold IdType.requestsOf
  rw [mem_dropRepeats, hmem]
  intro r hr s hs hsame
  obtain ⟨_, -, hr⟩ := (hmem r).1 hr
  obtain ⟨_, -, hs⟩ := (hmem s).1 hs
  exact eq_of_localName_eq (Program.binding?_of_importRequest h hr)
    (Program.binding?_of_importRequest h hs) (eq_of_beq (Bool.and_eq_true_iff.1 hsame).2)

theorem binding?_of_mem_requestsOf (h : (p.fileAt file).WellNamed) {references : List String}
    {r : ImportRequest} (hr : r ∈ IdType.requestsOf (p.fileAt file) references) :
    (p.fileAt file).binding? r.localName = some r.binding := by
  obtain ⟨name, -, hname⟩ := (mem_requestsOf h).1 hr
  exact Program.binding?_of_importRequest h hname

/-- A module that imports requests which agree with a file binds their names as the file does,
and no other names. -/
theorem get?_ofRequests {f : ScannedFile} {requests : List ImportRequest}
    (h : ∀ r ∈ requests, f.binding? r.localName = some r.binding) (name : String) :
    (ImportMap.ofRequests requests).get? name =
      if name ∈ requests.map (·.localName) then f.binding? name else none := by
  have hfold : ∀ m : ImportMap,
      (requests.foldl (fun m r => m.insert r.localName r.binding) m).get? name =
        if name ∈ requests.map (·.localName) then f.binding? name else m.get? name := by
    induction requests with
    | nil => intro m; rfl
    | cons r rest ih =>
      intro m
      rw [List.foldl_cons, ih fun s hs => h s (List.mem_cons_of_mem _ hs), List.map_cons,
        ImportMap.get?_insert]
      by_cases hr : name = r.localName
      · subst hr
        rw [if_pos List.mem_cons_self, if_pos rfl, h r List.mem_cons_self, ite_self]
      · rw [if_neg hr]
        simp only [List.mem_cons, hr, false_or]
  exact hfold {}

/-- A module that imports the requests of some names and declares nothing reads these names as
the file does. -/
theorem identityOf_of_requestsOf (h : (p.fileAt file).WellNamed) {references : List String}
    (himports :
      (q.fileAt other).imports = .ofRequests (IdType.requestsOf (p.fileAt file) references))
    (hdeclared : (q.fileAt other).declared = []) {name : String} (hname : name ∈ references) :
    q.identityOf other name = p.identityOf file name := by
  rw [Program.identityOf_eq q, ScannedFile.binding?_of_declares_nothing hdeclared, himports,
    get?_ofRequests fun r => binding?_of_mem_requestsOf h]
  split
  · exact (Program.identityOf_eq p file name).symm
  · rename_i hnew
    rw [Program.identityIn_none]
    cases hidentity : p.identityOf file name with
    | none => rfl
    | some identity =>
      -- a name that stands for something is asked for
      obtain ⟨r, hr, hscope⟩ := Program.exists_importRequest_of_identityOf h hidentity
      have hmem := (mem_requestsOf h).2 ⟨name, hname, hr⟩
      exact absurd (List.mem_map.2 ⟨r, hmem, hscope⟩) hnew

theorem imports_of_ofField {f : ScannedFile} {type : DeclaredType} {text : String}
    {imports : List ImportRequest} (h : IdType.ofField f (some type) = .declared text imports) :
    imports = IdType.requestsOf f type.references := by
  unfold IdType.ofField at h
  dsimp only at h
  split at h
  · cases h
  · exact (IdType.declared.inj h).2.symm

/-- The imports of an id type ask for no local name in two ways, and a module that imports them
and declares nothing itself reads every name of the type as the file does in which it is
written: as the same name of the same module, or as a name of no module.  This holds of all
programs of well named files, and every file that can be read is one. -/
theorem requests_keep_references :
    (∀ path text f, Source.SourceFile.read path text = .ok f → f.WellNamed) ∧
    ∀ (dir : Path) (files : List Source.SourceFile), (∀ f ∈ files, f.WellNamed) →
      let p := Program.ofSources dir files
      ∀ (owner : ClassId) (field : IdField) (type : DeclaredType) (text : String)
        (imports : List ImportRequest),
        (p.classAt owner).idField = some field → field.type = some type →
        ownIdType p owner = some ⟨owner, .declared text imports⟩ →
        (∀ r ∈ imports, ∀ s ∈ imports, r.localName = s.localName → r = s) ∧
        ∀ (q : Program) (fresh : FileId),
          (q.fileAt fresh).imports = .ofRequests imports → (q.fileAt fresh).declared = [] →
          ∀ name ∈ type.references,
            q.identityOf fresh name = p.identityOf (p.classAt owner).file name := by
  refine ⟨fun _ _ _ => Source.SourceFile.wellNamed_of_read, ?_⟩
  intro dir files hfiles p owner field type text imports hfield htype hown
  have hwell : (p.fileAt (p.classAt owner).file).WellNamed :=
    Program.wellNamed_fileAt_ofSources hfiles _
  obtain rfl : imports =
      IdType.requestsOf (p.fileAt (p.classAt owner).file) type.references := by
    rw [ownIdType_def, hfield, Option.map_some, htype] at hown
    exact imports_of_ofField (Found.mk.inj (Option.some.inj hown)).2
  refine ⟨fun r hr s hs => ?_, fun q fresh hbindings hdeclared name => ?_⟩
  · exact eq_of_localName_eq (binding?_of_mem_requestsOf hwell hr)
      (binding?_of_mem_requestsOf hwell hs)
  · exact identityOf_of_requestsOf hwell hbindings hdeclared

/-- A type with a renamed import, a name behind a module and a global needs the first two. -/
theorem requests_keep_references_behind_module :
    let shape : Source.TypeShape :=
      .reference "Map" [.reference "Id" [], .reference "keys.Key" []]
    let field : Source.Field :=
      ⟨"id", some ⟨"Map<Id, keys.Key>", shape⟩, false,
        [⟨"DatabaseField", none, [.object default [("id", .boolean default true)]], default⟩],
        default⟩
    let file : Source.SourceFile :=
      ⟨⟨"/src/tables.ts"⟩, "",
        [⟨[⟨"Uuid", some "Id"⟩], "./ids", default⟩, ⟨[⟨"*", some "keys"⟩], "@acme/keys", default⟩],
        [⟨"Rows", none, [], [field], [], false, true, default⟩], []⟩
    let p := Program.ofSources ⟨"/src"⟩ [file]
    file.WellNamed ∧ ∃ imports,
      ownIdType p 0 = some ⟨0, .declared "Map<Id, keys.Key>" imports⟩ ∧
      (imports.map fun r => (r.exported, r.localName)) = [("*", "keys"), ("Uuid", "Id")] ∧
      let fresh : ScannedFile := ⟨⟨"/out/rows.ts"⟩, ⟨"/out/rows"⟩, "", .ofRequests imports, []⟩
      ∀ name ∈ ["Map", "Id", "keys.Key"],
        (Program.mk ⟨"/out"⟩ [fresh] [] []).identityOf 0 name =
          p.identityOf (p.classAt 0).file name := by
  intro shape field file p
  have hfile : file.WellNamed := by
    refine ⟨?_, ?_⟩ <;> simp [file, wholeModule, Source.ImportedName.localName]
  have hfiles : ∀ f ∈ [file], f.WellNamed := fun f hf => List.mem_singleton.1 hf ▸ hfile
  have htype : (p.classAt 0).idField.bind (·.type) =
      some ⟨"Map<Id, keys.Key>", none, ["Map", "Id", "keys.Key"]⟩ := by decide +kernel
  obtain ⟨field, hfield, htype⟩ := Option.bind_eq_some_iff.1 htype
  have hown : ownIdType p 0 = some ⟨0, .declared "Map<Id, keys.Key>"
      (IdType.requestsOf (p.fileAt (p.classAt 0).file) ["Map", "Id", "keys.Key"])⟩ := by
    rw [ownIdType_def, hfield, Option.map_some, htype]
    rfl
  refine ⟨hfile, _, hown, by decide +kernel, ?_⟩
  exact (requests_keep_references.2 ⟨"/src"⟩ [file] hfiles 0 _ _ _ _ hfield htype hown).2 _ 0 rfl rfl

end Schema

end DaoGen
