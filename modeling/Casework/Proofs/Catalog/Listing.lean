import Casework.Command.Program
import Casework.Files.Tree
import Casework.Proofs.Dictionary
import Casework.Proofs.Formula.Prediction
import Mathlib.Data.Multiset.Defs

/-!
# What is read does not depend on how files are listed

The names in a folder come in any order. A catalog reads the files by name, so it is the same
catalog, or the same error, for all file systems that agree about every path, and the program gives
the same answer. Trees agree if they have the same texts and folders in them, however these are
kept.
-/

namespace Casework

/-! ### File systems that agree -/

variable {m : Type → Type} [Monad m]

/-- The file systems say the same of every path, but a folder may list its names in another
order. -/
structure FileSystem.Agrees (fs fs' : FileSystem m) : Prop where
  kind : ∀ path, fs.kind? path = fs'.kind? path
  names : ∀ path, Option.map Multiset.ofList <$> fs.names? path =
    Option.map Multiset.ofList <$> fs'.names? path
  text : ∀ path, fs.text? path = fs'.text? path

/-- Names that are put in order no longer tell how they were listed. -/
theorem mergeSort_eq_of_perm {names names' : List String} (h : names.Perm names') :
    names.mergeSort (· ≤ ·) = names'.mergeSort (· ≤ ·) := by
  have hsorted := Dictionary.pairwise_mergeSort (α := String) id
  have hperm : (names.mergeSort (· ≤ ·)).Perm (names'.mergeSort (· ≤ ·)) :=
    ((List.mergeSort_perm _ _).trans h).trans (List.mergeSort_perm _ _).symm
  refine List.Perm.eq_of_pairwise ?_ (hsorted names) (hsorted names') hperm
  intro a b _ _ hab hba
  exact String.le_antisymm hab hba

/-- It does not matter in what two values differ if what follows makes no use of it. -/
theorem bind_eq_of_map_eq {n : Type → Type} [Monad n] [LawfulMonad n] {α β γ : Type}
    [Nonempty (n γ)] {x y : n α} {r : α → β} (h : r <$> x = r <$> y) {f : α → n γ}
    (hf : f.FactorsThrough r) : x >>= f = y >>= f := by
  obtain ⟨g, rfl⟩ := (Function.factorsThrough_iff f).1 hf
  calc
    x >>= g ∘ r = r <$> x >>= g := (bind_map_left r x g).symm
    _ = r <$> y >>= g := by rw [h]
    _ = y >>= g ∘ r := bind_map_left r y g

variable {fs fs' : FileSystem m} {α : Type}

namespace CatalogDirectory

theorem readFile_eq (h : fs.Agrees fs') (format : FileFormat α) :
    readFile fs format = readFile fs' format := by
  funext path
  rw [readFile, readFile, h.text]

variable [LawfulMonad m]

theorem yamlFiles_eq (h : fs.Agrees fs') (folder : String) :
    yamlFiles fs folder = yamlFiles fs' folder := by
  have hlisted : Option.map Multiset.ofList <$> (liftM (fs.names? folder) : ExceptT LoadError m _) =
      Option.map Multiset.ofList <$> (liftM (fs'.names? folder) : ExceptT LoadError m _) := by
    rw [← liftM_map, ← liftM_map, h.names]
  rw [yamlFiles, yamlFiles, h.kind]
  congr 1
  funext kind
  split
  · rfl
  · have : Nonempty (ExceptT LoadError m (List String)) := ⟨throw (.unreadable folder)⟩
    refine bind_eq_of_map_eq hlisted ?_
    rintro (- | names) (- | names') heq
    · rfl
    · cases heq
    · cases heq
    · have hperm : names.Perm names' := Multiset.coe_eq_coe.1 (Option.some.inj heq)
      show pure _ = pure _
      rw [mergeSort_eq_of_perm (hperm.filter isYaml)]

theorem readFolder_eq (h : fs.Agrees fs') (format : FileFormat α) (folder : String) :
    readFolder fs format folder = readFolder fs' format folder := by
  rw [readFolder, readFolder, yamlFiles_eq h, readFile_eq h]

/-- The catalog of a directory, or what is wrong with it, does not depend on the order in which the
folders list their names. -/
theorem load_eq (h : fs.Agrees fs') (path : String) : load fs path = load fs' path := by
  simp only [load, h.kind, readFolder_eq h]

end CatalogDirectory

namespace Program

theorem variablesText?_eq (h : fs.Agrees fs') (folders : List String) :
    variablesText? fs folders = variablesText? fs' folders := by
  induction folders with
  | nil => rfl
  | cons folder folders ih => rw [variablesText?, variablesText?, h.kind, h.text, ih]

theorem catalogAround?_eq (h : fs.Agrees fs') (left : Nat) (path : String) :
    catalogAround? fs left path = catalogAround? fs' left path := by
  induction left generalizing path with
  | zero => rfl
  | succ left ih => simp only [catalogAround?, h.kind, ih]

theorem catalogFolder_eq (h : fs.Agrees fs') (environment : EnvFile.Lookup) :
    catalogFolder fs environment = catalogFolder fs' environment := by
  simp only [catalogFolder, h.kind, catalogAround?_eq h]

theorem answer_eq [LawfulMonad m] (h : fs.Agrees fs') (environment : EnvFile.Lookup)
    (arguments : List String) (w : World Unit) :
    answer fs environment arguments w = answer fs' environment arguments w := by
  simp only [answer, catalogFolder_eq h, CatalogDirectory.load_eq h]

end Program

/-! ### Trees with the same files -/

namespace FileTree

variable {t t' : FileTree}

/-- The trees have the same texts in them and the same folders. -/
structure Same (t t' : FileTree) : Prop where
  texts : t.textAt? = t'.textAt?
  folders : ∀ p, p ∈ t.folders ↔ p ∈ t'.folders

theorem textAt?_isSome_iff (t : FileTree) (p : Place) :
    (t.textAt? p).isSome ↔ p ∈ t.files.map Prod.fst := by
  rw [textAt?, List.lookup_isSome_iff, List.mem_map]
  simp only [beq_iff_eq, @eq_comm _ p]

theorem isFolder_iff (t : FileTree) (p : Place) :
    t.isFolder p ↔ p = [] ∨ (∃ q ∈ t.folders, p <+: q) ∨
      ∃ q ∈ t.files.map Prod.fst, p <+: q ∧ p.length < q.length := by
  simp [isFolder, or_assoc]

theorem textAt?_eq_some_iff {p : Place} {text : String} (hplaces : (t.files.map Prod.fst).Nodup) :
    t.textAt? p = some text ↔ (p, text) ∈ t.files := by
  constructor
  · intro h
    obtain ⟨before, behind, hfiles, -⟩ := List.lookup_eq_some_iff.1 h
    exact hfiles ▸ List.mem_append_right before List.mem_cons_self
  · exact Dictionary.lookup_of_mem hplaces

/-- Trees that keep the same files and folders in different orders. -/
theorem same_of_perm (hplaces : (t.files.map Prod.fst).Nodup) (hfiles : t.files.Perm t'.files)
    (hfolders : t.folders.Perm t'.folders) : t.Same t' where
  texts := by
    have hplaces' : (t'.files.map Prod.fst).Nodup := (hfiles.map _).nodup_iff.1 hplaces
    funext p
    refine Option.ext fun text => ?_
    rw [textAt?_eq_some_iff hplaces, textAt?_eq_some_iff hplaces', hfiles.mem_iff]
  folders _ := hfolders.mem_iff

namespace Same

theorem mem_files (h : t.Same t') (p : Place) :
    p ∈ t.files.map Prod.fst ↔ p ∈ t'.files.map Prod.fst := by
  rw [← textAt?_isSome_iff, ← textAt?_isSome_iff, h.texts]

theorem isFolder_eq (h : t.Same t') : t.isFolder = t'.isFolder := by
  funext p
  rw [Bool.eq_iff_iff, isFolder_iff, isFolder_iff]
  simp only [h.folders, h.mem_files]

theorem kindAt?_eq (h : t.Same t') : t.kindAt? = t'.kindAt? := by
  funext p
  rw [kindAt?, kindAt?, h.isFolder_eq, h.texts]

theorem walk_eq (h : t.Same t') (p : Place) (parts : List String) :
    t.walk p parts = t'.walk p parts := by
  induction parts generalizing p with
  | nil => rfl
  | cons part parts ih => simp only [walk, h.isFolder_eq, ih]

theorem place?_eq (h : t.Same t') (path : String) : t.place? path = t'.place? path := by
  rw [place?, place?, h.walk_eq]

theorem namesAt_perm (h : t.Same t') (p : Place) : (t.namesAt p).Perm (t'.namesAt p) := by
  refine (List.perm_ext_iff_of_nodup (Formula.firstUses_eraseDups _).nodup
    (Formula.firstUses_eraseDups _).nodup).2 fun name => ?_
  simp only [List.mem_eraseDups, List.mem_filterMap, List.mem_filter, List.mem_append, h.folders,
    h.mem_files]

theorem agrees (h : t.Same t') : t.fileSystem.Agrees t'.fileSystem where
  kind path := by
    simp only [fileSystem, h.place?_eq, h.kindAt?_eq]
  names path := by
    show Option.map Multiset.ofList ((t.place? path).bind _) =
      Option.map Multiset.ofList ((t'.place? path).bind _)
    rw [h.place?_eq]
    cases t'.place? path with
    | none => rfl
    | some p =>
      simp only [Option.bind_some, h.isFolder_eq]
      split
      · exact congrArg some (Multiset.coe_eq_coe.2 (h.namesAt_perm p))
      · rfl
  text path := by
    simp only [fileSystem, h.place?_eq, h.texts]

end Same

/-- The program finds the same variables and gives the same answer, in whatever order the files and
folders of a tree are told. -/
theorem answer_eq_of_perm {files files' : List (String × String)} {folders folders' : List String}
    (hplaces : ((ofTexts files folders).files.map Prod.fst).Nodup) (hfiles : files.Perm files')
    (hfolders : folders.Perm folders') (environment : EnvFile.Lookup)
    (around arguments : List String) (w : World Unit) :
    let fs := (ofTexts files folders).fileSystem
    let fs' := (ofTexts files' folders').fileSystem
    Program.variablesText? fs around = Program.variablesText? fs' around ∧
      Program.answer fs environment arguments w = Program.answer fs' environment arguments w :=
  have hsame : (ofTexts files folders).Same (ofTexts files' folders') :=
    same_of_perm hplaces (hfiles.map _) (hfolders.map _)
  have hagrees := hsame.agrees
  ⟨Program.variablesText?_eq hagrees around, Program.answer_eq hagrees environment arguments w⟩

end FileTree

end Casework
