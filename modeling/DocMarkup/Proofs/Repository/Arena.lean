import DocMarkup.Proofs.Repository.Layout

/-!
How a namespace is filled: a declaration is pushed before those nested in it, whose places go to
its children one after the other, and two maps keep where a name or a symbol was declared last.
-/

namespace DocMarkup

section

variable {α : Type} {items : List α} {test : α → Prop} {place : Nat}

theorem IsLast.lt_length (h : IsLast items test place) : place < items.length := by
  obtain ⟨⟨item, hitem, -⟩, -⟩ := h
  exact (List.getElem?_eq_some_iff.mp hitem).1

theorem mem_getElem?_concat_iff {item found : α} :
    found ∈ (items ++ [item])[place]? ↔
      (place = items.length ∧ found = item) ∨ found ∈ items[place]? := by
  rcases Nat.lt_trichotomy place items.length with hlt | rfl | hgt
  · simp [List.getElem?_append_left hlt, hlt.ne]
  · simp [eq_comm]
  · have hend : (items ++ [item]).length ≤ place := by
      rw [List.length_append, List.length_singleton]
      exact hgt
    simp [List.getElem?_eq_none hend, List.getElem?_eq_none hgt.le, hgt.ne']

theorem isLast_concat_iff {item : α} :
    IsLast (items ++ [item]) test place ↔
      test item ∧ place = items.length ∨ ¬ test item ∧ IsLast items test place := by
  constructor
  · intro h
    obtain ⟨⟨found, hfound, htest⟩, hlast⟩ := h
    rcases mem_getElem?_concat_iff.mp hfound with ⟨rfl, rfl⟩ | hbefore
    · exact .inl ⟨htest, rfl⟩
    · have hlt := (List.getElem?_eq_some_iff.mp hbefore).1
      have hitem : ¬ test item := hlast _ hlt item (mem_getElem?_concat_iff.mpr (.inl ⟨rfl, rfl⟩))
      exact .inr ⟨hitem, ⟨found, hbefore, htest⟩, fun later hlater other hother =>
        hlast later hlater other (mem_getElem?_concat_iff.mpr (.inr hother))⟩
  · intro h
    rcases h with ⟨htest, rfl⟩ | ⟨hitem, ⟨found, hfound, htest⟩, hlast⟩
    · refine ⟨⟨item, List.getElem?_concat_length, htest⟩, fun later hlater other hother => ?_⟩
      have hbound := (List.getElem?_eq_some_iff.mp hother).1
      rw [List.length_append, List.length_singleton] at hbound
      omega
    · refine ⟨⟨found, mem_getElem?_concat_iff.mpr (.inr hfound), htest⟩, ?_⟩
      intro later hlater other hother
      rcases mem_getElem?_concat_iff.mp hother with ⟨-, rfl⟩ | hbefore
      · exact hitem
      · exact hlast later hlater other hbefore

theorem modify_append (change : α → α) {index : Nat} (hlt : index < items.length)
    (more : List α) : (items ++ more).modify index change = items.modify index change ++ more := by
  induction items generalizing index with
  | nil => cases hlt
  | cons item items ih =>
      cases index with
      | zero => rfl
      | succ index =>
          rw [List.cons_append, List.modify_succ_cons, List.modify_succ_cons, List.cons_append,
            ih (Nat.lt_of_succ_lt_succ hlt)]

theorem modify_concat (change : α → α) (items : List α) (item : α) :
    (items ++ [item]).modify items.length change = items ++ [change item] := by
  induction items with
  | nil => rfl
  | cons first items ih =>
      rw [List.cons_append, List.length_cons, List.modify_succ_cons, ih, List.cons_append]

theorem isLast_modify_iff (change : α → α) (hchange : ∀ item, test (change item) ↔ test item)
    (index : Nat) : IsLast (items.modify index change) test place ↔ IsLast items test place := by
  have hsome : ∀ place : Nat, (∃ item ∈ (items.modify index change)[place]?, test item) ↔
      ∃ item ∈ items[place]?, test item := by
    intro place
    rw [List.getElem?_modify]
    cases hitem : items[place]? with
    | none => simp
    | some item =>
        by_cases heq : index = place
        · simp [heq, hchange]
        · simp [heq]
  have hnone : ∀ place : Nat, (∀ item ∈ (items.modify index change)[place]?, ¬ test item) ↔
      ∀ item ∈ items[place]?, ¬ test item := by
    intro place
    have hnot := not_congr (hsome place)
    simpa only [not_exists, not_and] using hnot
  exact and_congr (hsome place) (forall₂_congr fun later _ => hnone later)

end

structure Arena where
  entities : Array Entity := #[]
  byName : Std.HashMap String Nat := ∅
  bySymbol : Std.HashMap String Nat := ∅

namespace Arena

def push (arena : Arena) (parent : Option Nat) (info : EntityInfo) : Arena where
  entities := arena.entities.push ⟨info, parent, []⟩
  byName :=
    if parent.isNone then arena.byName.insert info.name arena.entities.size else arena.byName
  bySymbol :=
    match info.symbol with
    | none => arena.bySymbol
    | some symbol => arena.bySymbol.insert symbol arena.entities.size

def addChild (arena : Arena) (owner child : Nat) : Arena :=
  { arena with
    entities := arena.entities.modify owner fun entity =>
      { entity with children := entity.children ++ [child] } }

mutual

/-- Inserts a declaration, which gets the next place, and those nested in it. -/
def insert (arena : Arena) (parent : Option Nat) : Declaration → Arena
  | ⟨info, children⟩ => insertAll (arena.push parent info) arena.entities.size children

/-- Inserts the children of an entity. -/
def insertAll (arena : Arena) (owner : Nat) : List Declaration → Arena
  | [] => arena
  | decl :: rest =>
      insertAll ((insert arena (some owner) decl).addChild owner arena.entities.size) owner rest

end

def ofDecls (decls : List Declaration) : Arena :=
  decls.foldl (fun arena decl => arena.insert none decl) {}

end Arena

namespace Entity

def addChildren (entity : Entity) (children : List Nat) : Entity :=
  { entity with children := entity.children ++ children }

end Entity

namespace Arena

variable {arena : Arena} {parent : Option Nat} {owner : Nat}

open Declaration

theorem toList_push (arena : Arena) (parent : Option Nat) (info : EntityInfo) :
    (arena.push parent info).entities.toList = arena.entities.toList ++ [⟨info, parent, []⟩] :=
  Array.toList_push

theorem toList_addChild (arena : Arena) (owner child : Nat) :
    (arena.addChild owner child).entities.toList =
      arena.entities.toList.modify owner (Entity.addChildren · [child]) :=
  Array.toList_modify

theorem size_push (arena : Arena) (parent : Option Nat) (info : EntityInfo) :
    (arena.push parent info).entities.size = arena.entities.size + 1 :=
  Array.size_push _

theorem size_addChild (arena : Arena) (owner child : Nat) :
    (arena.addChild owner child).entities.size = arena.entities.size :=
  Array.size_modify

theorem size_of_toList {arena : Arena} {entities : List Entity}
    (h : arena.entities.toList = entities) : arena.entities.size = entities.length := by
  rw [← h, Array.length_toList]

mutual

theorem toList_insert (arena : Arena) (parent : Option Nat) :
    ∀ decl : Declaration, (arena.insert parent decl).entities.toList =
      arena.entities.toList ++ layout parent arena.entities.size decl
  | ⟨info, children⟩ => by
      have howner : arena.entities.size < (arena.push parent info).entities.size := by
        rw [size_push]
        exact Nat.lt_succ_self _
      have hhead := modify_concat (Entity.addChildren · (indices (arena.entities.size + 1) children))
        arena.entities.toList ⟨info, parent, []⟩
      rw [Array.length_toList] at hhead
      rw [insert, toList_insertAll (arena.push parent info) arena.entities.size children howner,
        toList_push, size_push, hhead, layout, List.append_assoc]
      rfl

/-- Children are laid out behind the arena as well, and their owner gets the places. -/
theorem toList_insertAll (arena : Arena) (owner : Nat) :
    ∀ decls : List Declaration, owner < arena.entities.size →
      (arena.insertAll owner decls).entities.toList =
        arena.entities.toList.modify owner
            (Entity.addChildren · (indices arena.entities.size decls)) ++
          layoutAll (some owner) arena.entities.size decls
  | [], _ => by
      have hnone : (Entity.addChildren · []) = id := funext fun entity => by
        rw [Entity.addChildren, List.append_nil]
        rfl
      rw [insertAll, indices, layoutAll, hnone, List.modify_id, List.append_nil]
  | decl :: rest, howner => by
      have hlength : owner < arena.entities.toList.length := by rwa [Array.length_toList]
      have hinsert := toList_insert arena (some owner) decl
      have hmid := toList_addChild (arena.insert (some owner) decl) owner arena.entities.size
      rw [hinsert, modify_append _ hlength] at hmid
      have hsize : ((arena.insert (some owner) decl).addChild owner
          arena.entities.size).entities.size = arena.entities.size + decl.size := by
        rw [size_of_toList hmid, List.length_append, List.length_modify, Array.length_toList,
          length_layout]
      have hboth : (Entity.addChildren · (indices (arena.entities.size + decl.size) rest)) ∘
          (Entity.addChildren · [arena.entities.size]) =
          (Entity.addChildren · (indices arena.entities.size (decl :: rest))) := by
        funext entity
        simp [Entity.addChildren, indices]
      rw [insertAll, toList_insertAll _ owner rest (by omega), hsize, hmid,
        modify_append _ (by rwa [List.length_modify]), List.modify_modify_eq, hboth, layoutAll,
        List.append_assoc]

end

theorem toList_foldl_insert (arena : Arena) (decls : List Declaration) :
    (decls.foldl (fun arena decl => arena.insert none decl) arena).entities.toList =
      arena.entities.toList ++ layoutAll none arena.entities.size decls := by
  induction decls generalizing arena with
  | nil => rw [List.foldl_nil, layoutAll, List.append_nil]
  | cons decl rest ih =>
      have hinsert := toList_insert arena none decl
      have hsize := size_of_toList hinsert
      rw [List.length_append, Array.length_toList, length_layout] at hsize
      rw [List.foldl_cons, ih, hinsert, hsize, layoutAll, List.append_assoc]

/-- The maps lead to what was declared last. -/
structure Answers (arena : Arena) : Prop where
  byName : ∀ name place, arena.byName[name]? = some place ↔
    IsLast arena.entities.toList (fun entity => entity.parent = none ∧ entity.name = name) place
  bySymbol : ∀ symbol place, arena.bySymbol[symbol]? = some place ↔
    IsLast arena.entities.toList (fun entity => entity.symbol = some symbol) place

theorem Answers.empty : Answers {} where
  byName name place := by simp [IsLast]
  bySymbol symbol place := by simp [IsLast]

theorem Answers.push (h : arena.Answers) (parent : Option Nat) (info : EntityInfo) :
    (arena.push parent info).Answers where
  byName name place := by
    rw [toList_push, isLast_concat_iff, ← h.byName, Arena.push]
    cases parent with
    | some owner => simp
    | none =>
        simp only [Option.isNone_none, if_true, Std.HashMap.getElem?_insert, beq_iff_eq]
        by_cases hname : info.name = name
        · simp [hname, eq_comm]
        · simp [hname]
  bySymbol symbol place := by
    rw [toList_push, isLast_concat_iff, ← h.bySymbol, Arena.push]
    cases hsymbol : info.symbol with
    | none => simp
    | some other =>
        simp only [Std.HashMap.getElem?_insert, beq_iff_eq]
        by_cases heq : other = symbol
        · simp [heq, eq_comm]
        · simp [heq]

theorem Answers.addChild (h : arena.Answers) (owner child : Nat) :
    (arena.addChild owner child).Answers where
  byName name place := by
    rw [toList_addChild, isLast_modify_iff (Entity.addChildren · [child]) fun _ => Iff.rfl]
    exact h.byName name place
  bySymbol symbol place := by
    rw [toList_addChild, isLast_modify_iff (Entity.addChildren · [child]) fun _ => Iff.rfl]
    exact h.bySymbol symbol place

mutual

theorem Answers.insert (parent : Option Nat) :
    ∀ {arena : Arena} (decl : Declaration), arena.Answers → (arena.insert parent decl).Answers
  | arena, ⟨info, children⟩, h => by
      rw [Arena.insert]
      exact insertAll arena.entities.size children (h.push parent info)

theorem Answers.insertAll (owner : Nat) :
    ∀ {arena : Arena} (decls : List Declaration), arena.Answers →
      (arena.insertAll owner decls).Answers
  | _, [], h => by
      rw [Arena.insertAll]
      exact h
  | arena, decl :: rest, h => by
      rw [Arena.insertAll]
      exact insertAll owner rest ((insert (some owner) decl h).addChild owner arena.entities.size)

end

theorem answers_ofDecls (decls : List Declaration) : (ofDecls decls).Answers :=
  List.foldlRecOn decls _ .empty fun _ h decl _ => h.insert none decl

end Arena

namespace Namespace

variable {space : Namespace}

theorem isLast_entities_iff (id : space.Id) {test : Entity → Prop} :
    IsLast space.entities.toList test id.val ↔
      test (space.entity id) ∧ ∀ later, id < later → ¬ test (space.entity later) := by
  have hlast : (∃ place, space.ids[place]? = some id ∧
      IsLast (space.ids.map space.entity) test place) ↔
      (id ∈ space.ids ∧ test (space.entity id)) ∧
        ∀ later, id < later → later ∈ space.ids → ¬ test (space.entity later) :=
    isLast_map_iff space.sorted_ids
  simpa [getElem?_ids_iff, map_ids, mem_ids] using hlast

theorem findLast?_map_val_eq_some_iff {test : Entity → Bool} {place : Nat} :
    (space.findLast? test).map Fin.val = some place ↔
      IsLast space.entities.toList (test · = true) place := by
  rw [Option.map_eq_some_iff]
  constructor
  · intro h
    obtain ⟨id, hid, rfl⟩ := h
    rw [isLast_entities_iff]
    simpa using findLast?_eq_some_iff.mp hid
  · intro h
    have hlt : place < space.entities.size := by simpa using h.lt_length
    refine ⟨⟨place, hlt⟩, findLast?_eq_some_iff.mpr ?_, rfl⟩
    simpa using (isLast_entities_iff ⟨place, hlt⟩).mp h

/-- Inserting the declarations makes the entities of the namespace, and the maps that are left
answer as its look-ups do. -/
theorem ofDecl_inserts (decl : NamespaceDeclaration) :
    (Arena.ofDecls decl.entities).entities = (ofDecl decl).entities ∧
      (∀ name, (Arena.ofDecls decl.entities).byName[name]? =
        ((ofDecl decl).get? name).map Fin.val) ∧
      ∀ symbol, (Arena.ofDecls decl.entities).bySymbol[symbol]? =
        ((ofDecl decl).withSymbol? symbol).map Fin.val := by
  have hentities : (Arena.ofDecls decl.entities).entities.toList =
      (ofDecl decl).entities.toList := by
    rw [entities_ofDecl]
    exact Arena.toList_foldl_insert {} decl.entities
  have hanswers := Arena.answers_ofDecls decl.entities
  refine ⟨Array.toList_inj.mp hentities, fun name => ?_, fun symbol => ?_⟩
  · refine Option.ext fun place => ?_
    rw [hanswers.byName, hentities, get?, findLast?_map_val_eq_some_iff]
    simp
  · refine Option.ext fun place => ?_
    rw [hanswers.bySymbol, hentities, withSymbol?, findLast?_map_val_eq_some_iff]
    simp

end Namespace

end DocMarkup
