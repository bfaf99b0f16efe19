import FinanceIntelligence.CsvEncoding
import Mathlib.Data.List.Infix
import Mathlib.Logic.Function.Basic

/-!
# The local object storage

`LocalStorageAdapter` (storage/local_adapter.py) keeps the objects of the tenants in files below
one directory. A file is written under a temporary name and takes its own with one `os.replace`.

* `resolveSafePath_contained` — **containment**: whatever links there are, a path that is accepted
  lies below the directory.
* `getObject_putObject` — **a round trip and a frame**: an object that is stored is read back, and
  all others but one stay as they are.
-/

namespace FinanceIntelligence

variable {α : Type}

/-! ## Paths -/

/-- An absolute path by its names, from the root on. -/
abbrev StoragePath := List (List Char)

namespace StoragePath

/-- `os.path.abspath(os.path.join(dir, name))`, for a name without slashes. -/
def join (dir : StoragePath) (name : List Char) : StoragePath :=
  if name = [] ∨ name = ['.'] then dir
  else if name = ['.', '.'] then dir.dropLast
  else dir ++ [name]

/-- `os.path.commonpath` of two paths. -/
def common : StoragePath → StoragePath → StoragePath
  | a :: p, b :: q => if a = b then a :: common p q else []
  | _, _ => []

/-- `target_path + ".tmp"` -/
def tmp (p : StoragePath) : StoragePath := p.dropLast ++ [p.getLastD [] ++ ".tmp".toList]

theorem common_eq_right_iff {p q : StoragePath} : common p q = q ↔ q <+: p := by
  induction q generalizing p with
  | nil => cases p <;> simp [common]
  | cons b q ih =>
    cases p with
    | nil => simp [common]
    | cons a p =>
      rw [common, List.cons_prefix_cons]
      by_cases h : a = b
      · rw [if_pos h, List.cons_eq_cons, ih]
        simp [h]
      · rw [if_neg h]
        simp [Ne.symm h]

/-- A temporary name is another one. -/
theorem tmp_ne (p : StoragePath) : p.tmp ≠ p := by
  intro h
  have hlen := congrArg (fun q : StoragePath => (q.map List.length).sum) h
  rcases List.eq_nil_or_concat p with rfl | ⟨dir, name, rfl⟩
  · cases h
  · simp [tmp] at hlen

end StoragePath

/-- What the file system says of paths. -/
structure PathResolver where
  /-- `os.path.realpath` of an absolute path -/
  realpath : StoragePath → StoragePath
  /-- `os.path.islink` -/
  isLink : StoragePath → Bool

/-- A tree without links. -/
def PathResolver.plain : PathResolver where
  realpath p := p
  isLink _ := false

namespace LocalStorage

open StoragePath SecurityPipeline

/-- A path traversal sequence in the arguments. -/
def hasTraversal (tenantId objectKey : List Char) : Bool :=
  decide (['.', '.'] <:+: tenantId) || decide (['.', '.'] <:+: objectKey) ||
    tenantId.head? == some '/' || objectKey.head? == some '/'

/-- `_resolve_safe_path`; `none` is a `PathTraversalException`. -/
def resolveSafePath (R : PathResolver) (root : StoragePath) (tenantId objectKey : List Char) :
    Option StoragePath :=
  if hasTraversal tenantId objectKey then none
  else
    let safeTenant := basename tenantId
    let safeKey := basename objectKey
    let tenantDir := R.realpath (root.join safeTenant)
    let fullPath := R.realpath (tenantDir.join safeKey)
    if common fullPath root ≠ root then none
    else if R.isLink fullPath || R.isLink tenantDir then none
    else some fullPath

variable {R : PathResolver} {root : StoragePath} {tenantId objectKey : List Char} {p : StoragePath}

/-- **Containment.** Whatever links there are, a path that is accepted lies below the root, and no
link stands at it. -/
theorem resolveSafePath_contained (h : resolveSafePath R root tenantId objectKey = some p) :
    root <+: p ∧ R.isLink p = false := by
  unfold resolveSafePath at h
  split at h
  · cases h
  · simp only at h
    split at h
    · cases h
    next hcommon =>
      split at h
      · cases h
      next hlink =>
        obtain rfl := Option.some.inj h
        rw [Bool.or_eq_true, not_or, Bool.not_eq_true] at hlink
        exact ⟨common_eq_right_iff.mp (not_not.mp hcommon), hlink.1⟩

theorem basename_suffix (filename : List Char) : basename filename <:+ filename := by
  have h := List.takeWhile_prefix (l := filename.reverse) (p := (· != '/'))
  rw [← List.reverse_suffix, List.reverse_reverse] at h
  exact h

theorem prefix_join {dir : StoragePath} {name : List Char} (h : name ≠ ['.', '.']) :
    dir <+: dir.join name := by
  rw [StoragePath.join]
  split
  · exact List.prefix_refl _
  · exact List.prefix_append _ _

/-- **Without links** a key is the name of a file in the directory of its tenant, and the checks on
the path that is resolved pass. -/
theorem resolveSafePath_plain : resolveSafePath .plain root tenantId objectKey =
    if hasTraversal tenantId objectKey then none
    else some ((root.join (basename tenantId)).join (basename objectKey)) := by
  unfold resolveSafePath
  split
  · rfl
  next htraversal =>
    simp only [hasTraversal, Bool.or_eq_true, decide_eq_true_eq, not_or] at htraversal
    obtain ⟨⟨⟨htenant, hkey⟩, -⟩, -⟩ := htraversal
    have hname : ∀ {text : List Char}, ¬ ['.', '.'] <:+: text → basename text ≠ ['.', '.'] :=
      fun htext heq => htext (heq ▸ (basename_suffix _).isInfix)
    have hroot : root <+: (root.join (basename tenantId)).join (basename objectKey) :=
      (prefix_join (hname htenant)).trans (prefix_join (hname hkey))
    exact (if_neg (not_not.mpr (common_eq_right_iff.mpr hroot))).trans (if_neg Bool.false_ne_true)

/-! ## Files -/

/-- The regular files by their paths. -/
abbrev Files (α : Type) := StoragePath → Option (List α)

/-- What the adapter raises. -/
inductive StorageError where
  | pathTraversal
  /-- `FileNotFoundError` -/
  | fileNotFound
deriving DecidableEq

/-- `while chunk := f.read(n)`: what is left is at most `fuel` long. -/
def chunksUpTo (n : ℕ) : ℕ → List α → List (List α)
  | 0, _ => []
  | fuel + 1, l => if l.isEmpty then [] else l.take n :: chunksUpTo n fuel (l.drop n)

/-- The chunks in which a stream is read. -/
def readInChunks (n : ℕ) (data : List α) : List (List α) := chunksUpTo n data.length data

theorem flatten_chunksUpTo {n : ℕ} (hn : 0 < n) {fuel : ℕ} {l : List α} (h : l.length ≤ fuel) :
    (chunksUpTo n fuel l).flatten = l := by
  induction fuel generalizing l with
  | zero => exact (List.eq_nil_of_length_eq_zero (Nat.le_zero.mp h)).symm
  | succ fuel ih =>
    rw [chunksUpTo]
    split
    next hnil => exact (List.isEmpty_iff.mp hnil).symm
    next =>
      rw [List.flatten_cons, ih (by rw [List.length_drop]; omega), List.take_append_drop]

theorem flatten_readInChunks {n : ℕ} (hn : 0 < n) (data : List α) :
    (readInChunks n data).flatten = data :=
  flatten_chunksUpTo hn le_rfl

namespace Files

variable (files : Files α)

/-- `open(path, "wb")` -/
def create (p : StoragePath) : Files α := Function.update files p (some [])

/-- `open(path, "ab")` and `write` -/
def append (p : StoragePath) (chunk : List α) : Files α :=
  Function.update files p (some ((files p).getD [] ++ chunk))

/-- `os.replace` -/
def replace (source target : StoragePath) : Files α :=
  Function.update (Function.update files target (files source)) source none

/-- The contents of a file, or `FileNotFoundError`. -/
def read (p : StoragePath) : Except StorageError (List α) :=
  match files p with
  | some content => .ok content
  | none => .error .fileNotFound

/-- `os.remove` -/
def remove (p : StoragePath) : Files α := Function.update files p none

variable {files} {p q : StoragePath}

@[simp] theorem append_self (chunk : List α) :
    files.append p chunk p = some ((files p).getD [] ++ chunk) :=
  Function.update_self ..

theorem append_of_ne (chunk : List α) (h : q ≠ p) : files.append p chunk q = files q :=
  Function.update_of_ne h ..

/-- Chunks are written one after the other. -/
theorem foldl_append_self (chunks : List (List α)) (h : files p = some []) :
    chunks.foldl (fun files chunk => files.append p chunk) files p = some chunks.flatten := by
  suffices hgen : ∀ (files : Files α) (written : List α), files p = some written →
      chunks.foldl (fun files chunk => files.append p chunk) files p =
        some (written ++ chunks.flatten) from
    (hgen files [] h).trans (by rw [List.nil_append])
  induction chunks with
  | nil => intro files written h; simpa using h
  | cons chunk chunks ih =>
    intro files written h
    rw [List.foldl_cons, ih _ (written ++ chunk) (by rw [append_self, h]; rfl), List.append_assoc,
      List.flatten_cons]

theorem foldl_append_of_ne (chunks : List (List α)) (h : q ≠ p) :
    chunks.foldl (fun files chunk => files.append p chunk) files q = files q := by
  induction chunks generalizing files with
  | nil => rfl
  | cons chunk chunks ih => rw [List.foldl_cons, ih, append_of_ne chunk h]

theorem read_of_some {content : List α} (h : files p = some content) :
    files.read p = .ok content := by
  rw [read, h]

theorem read_of_none (h : files p = none) : files.read p = .error .fileNotFound := by
  rw [read, h]

theorem replace_target (h : p ≠ q) : files.replace p q q = files p := by
  rw [replace, Function.update_of_ne h.symm, Function.update_self]

theorem replace_source : files.replace p q p = none := Function.update_self ..

theorem replace_of_ne {x : StoragePath} (hp : x ≠ p) (hq : x ≠ q) :
    files.replace p q x = files x := by
  rw [replace, Function.update_of_ne hp, Function.update_of_ne hq]

end Files

/-! ## The adapter -/

section Adapter

variable (R root tenantId objectKey) (files : Files α)

/-- `_resolve_safe_path`, which raises. -/
def target : Except StorageError StoragePath :=
  match resolveSafePath R root tenantId objectKey with
  | some p => .ok p
  | none => .error .pathTraversal

/-- `put_object`. The chunks go where `open(temp_path, "wb")` leads, through a link if there is one;
`os.replace` renames what has the temporary name. -/
def putObject (data : List α) : Except StorageError (Files α) := do
  let p ← target R root tenantId objectKey
  let opened := R.realpath p.tmp
  let written := (readInChunks 65536 data).foldl (fun files chunk => files.append opened chunk)
    (files.create opened)
  .ok (written.replace p.tmp p)

/-- `get_object` -/
def getObject : Except StorageError (List α) := do
  let p ← target R root tenantId objectKey
  files.read p

end Adapter

theorem exists_of_putObject {files files' : Files α} {data : List α}
    (hlink : ∀ p, target R root tenantId objectKey = .ok p → R.realpath p.tmp = p.tmp)
    (h : putObject R root tenantId objectKey files data = .ok files') :
    ∃ p, target R root tenantId objectKey = .ok p ∧ files' p = some data ∧ files' p.tmp = none ∧
      ∀ q, q ≠ p → q ≠ p.tmp → files' q = files q := by
  unfold putObject at h
  cases hp : target R root tenantId objectKey with
  | error e =>
    rw [hp] at h
    cases h
  | ok p =>
    rw [hp] at h
    have hopened : R.realpath p.tmp = p.tmp := hlink p hp
    simp only [bind, Except.bind, hopened] at h
    obtain rfl := Except.ok.inj h
    refine ⟨p, rfl, ?_, Files.replace_source, fun q hq htmp => ?_⟩
    · have hnew : files.create p.tmp p.tmp = some [] := Function.update_self ..
      rw [Files.replace_target p.tmp_ne, Files.foldl_append_self _ hnew,
        flatten_readInChunks (by decide)]
    · rw [Files.replace_of_ne htmp hq, Files.foldl_append_of_ne _ htmp]
      exact Function.update_of_ne htmp ..

/-- **A round trip and a frame**, where the temporary name is not a link. An object that is stored is
read back. Every other key gives what it gave before, except that the object under the temporary
name is lost. -/
theorem getObject_putObject {files files' : Files α} {data : List α}
    (hlink : ∀ p, target R root tenantId objectKey = .ok p → R.realpath p.tmp = p.tmp)
    (h : putObject R root tenantId objectKey files data = .ok files')
    (tenantId' objectKey' : List Char) :
    getObject R root tenantId' objectKey' files' =
      if target R root tenantId' objectKey' = target R root tenantId objectKey then .ok data
      else if target R root tenantId' objectKey' =
        (target R root tenantId objectKey).map StoragePath.tmp then .error .fileNotFound
      else getObject R root tenantId' objectKey' files := by
  obtain ⟨p, hp, hdata, htmp, hframe⟩ := exists_of_putObject hlink h
  rw [hp]
  unfold getObject
  cases hq : target R root tenantId' objectKey' with
  | error e => rfl
  | ok q =>
    have hmap : (Except.ok p : Except StorageError StoragePath).map StoragePath.tmp = .ok p.tmp :=
      rfl
    rw [hmap]
    change files'.read q = _
    by_cases hqp : q = p
    · rw [if_pos (congrArg Except.ok hqp), hqp]
      exact Files.read_of_some hdata
    · rw [if_neg fun heq => hqp (Except.ok.inj heq)]
      by_cases hqt : q = p.tmp
      · rw [if_pos (congrArg Except.ok hqt), hqt]
        exact Files.read_of_none htmp
      · rw [if_neg fun heq => hqt (Except.ok.inj heq)]
        change files'.read q = files.read q
        rw [Files.read, Files.read, hframe q hqp hqt]

theorem getObject_putObject_text : ∃ files' : Files ℕ,
    putObject .plain [['s']] ['t'] ['k'] (fun _ => none) [97, 98] = .ok files' ∧
      ∀ tenantId' objectKey', getObject .plain [['s']] tenantId' objectKey' files' =
        if target .plain [['s']] tenantId' objectKey' = target .plain [['s']] ['t'] ['k'] then
          .ok [97, 98]
        else if target .plain [['s']] tenantId' objectKey' =
          (target .plain [['s']] ['t'] ['k']).map StoragePath.tmp then .error .fileNotFound
        else getObject .plain [['s']] tenantId' objectKey' fun _ => none :=
  ⟨_, rfl, getObject_putObject (fun _ _ => rfl) rfl⟩

end LocalStorage

end FinanceIntelligence
