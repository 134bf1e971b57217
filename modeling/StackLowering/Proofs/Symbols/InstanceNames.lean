import Mathlib.Data.List.Basic
import Mathlib.Data.String.Basic
import StackLowering.Symbols.Instances

/-!
# Names of instances

The name of an instance is that of its template, applied to the names of the type arguments. If the
names of all types that are written as such have no bracket and no comma (`SimpleName`), it can be read
back: a scan that stops at the first comma or closing bracket outside of brackets passes over a name
and stops behind it (`Balanced`). Different applications therefore have different names
(`appliedName_injective`), and none of them is simple.

The scan counts the characters that it passes over and knows how many brackets are open. A text is
balanced if the scan passes over it at any depth and goes on behind it as if it had just started there.
This is kept by putting a name in front of arguments in brackets, so that names of nested instances are
balanced as well, and it is all that is known of the names of arguments when two instances are
compared.

The names of constructors are put together with another character. For the symbols of functions and
constructors to be different, the names of functions must not contain that one either (`PlainName`).
-/

namespace StackLowering

/-- A name without the characters that the names of instances are put together with. -/
def SimpleName (name : String) : Prop :=
  ∀ c ∈ name.toList, c ≠ '<' ∧ c ≠ '>' ∧ c ≠ ','

instance (name : String) : Decidable (SimpleName name) :=
  List.decidableBAll (fun c ↦ c ≠ '<' ∧ c ≠ '>' ∧ c ≠ ',') name.toList

/-- A name without the characters that the names of instances and of constructors are put together
with. -/
def PlainName (name : String) : Prop :=
  ∀ c ∈ name.toList, c ≠ '<' ∧ c ≠ '>' ∧ c ≠ ',' ∧ c ≠ '#'

instance (name : String) : Decidable (PlainName name) :=
  List.decidableBAll (fun c ↦ c ≠ '<' ∧ c ≠ '>' ∧ c ≠ ',' ∧ c ≠ '#') name.toList

/-- A plain name is simple: it lacks the brackets and the comma as well. -/
theorem PlainName.simple {name : String} (h : PlainName name) : SimpleName name :=
  fun c hc ↦ ⟨(h c hc).1, (h c hc).2.1, (h c hc).2.2.1⟩

/-- A name without the mark of constructors is not the symbol of one. -/
theorem ne_constructorName {name : String} (h : '#' ∉ name.toList) (owner : String) :
    name ≠ Callable.constructorName owner := by
  rintro rfl
  simp [Callable.constructorName, String.toList_append] at h

/-- A plain name is not the symbol of a constructor, in which there is a number sign. -/
theorem PlainName.ne_constructorName {name : String} (h : PlainName name) (owner : String) :
    name ≠ Callable.constructorName owner :=
  StackLowering.ne_constructorName (fun hmem ↦ (h '#' hmem).2.2.2 rfl) owner

/-- The symbol of a constructor tells the name of its class. -/
theorem constructorName_injective {owner owner' : String}
    (h : Callable.constructorName owner = Callable.constructorName owner') : owner = owner' := by
  have hlist := congrArg String.toList h
  simp only [Callable.constructorName, String.toList_append] at hlist
  exact String.toList_inj.1 (List.append_cancel_right hlist)

/-! ### Scanning a name -/

/-- The number of characters before the first comma or closing bracket that is not in brackets,
starting inside of `depth` brackets. -/
def scan (depth : Nat) : List Char → Nat
  | [] => 0
  | c :: cs =>
    if c = '<' then scan (depth + 1) cs + 1
    else if c = '>' then if depth = 0 then 0 else scan (depth - 1) cs + 1
    else if c = ',' ∧ depth = 0 then 0
    else scan depth cs + 1

/-- A text that a scan passes over as a whole. -/
def Balanced (text : List Char) : Prop :=
  ∀ depth rest, scan depth (text ++ rest) = text.length + scan depth rest

/-- A scan passes over every character but brackets and commas. -/
theorem scan_cons_of_ne {c : Char} (h : c ≠ '<' ∧ c ≠ '>' ∧ c ≠ ',') (depth : Nat)
    (cs : List Char) : scan depth (c :: cs) = scan depth cs + 1 := by
  simp [scan, h]

namespace Balanced

variable {text text' rest rest' : List Char}

/-- A simple name has no brackets to balance. -/
theorem of_simple {name : String} (h : SimpleName name) : Balanced name.toList := by
  unfold SimpleName at h
  generalize name.toList = text at h
  induction text with
  | nil => simp [Balanced]
  | cons c cs ih =>
    intro depth rest
    rw [List.cons_append, scan_cons_of_ne (h c List.mem_cons_self),
      ih (fun c' hc' ↦ h c' (List.mem_cons_of_mem c hc')), List.length_cons]
    omega

/-- A balanced text is told apart from what follows it by the place where the scan stops. -/
theorem append_inj (h : Balanced text) (h' : Balanced text') (hrest : scan 0 rest = 0)
    (hrest' : scan 0 rest' = 0) (heq : text ++ rest = text' ++ rest') :
    text = text' ∧ rest = rest' := by
  have hscan := congrArg (scan 0) heq
  rw [h, h', hrest, hrest'] at hscan
  exact List.append_inj heq (by omega)

/-- Inside of brackets, names may be separated by commas. -/
theorem scan_intercalate {texts : List (List Char)} (h : ∀ text ∈ texts, Balanced text)
    (depth : Nat) (rest : List Char) :
    scan (depth + 1) ([',', ' '].intercalate texts ++ rest) =
      ([',', ' '].intercalate texts).length + scan (depth + 1) rest := by
  induction texts with
  | nil => simp
  | cons text texts ih =>
    have htext := h text List.mem_cons_self
    cases texts with
    | nil => simpa using htext (depth + 1) rest
    | cons next texts =>
      have ih := ih fun t ht ↦ h t (List.mem_cons_of_mem text ht)
      have hseparator (cs : List Char) :
          scan (depth + 1) (',' :: ' ' :: cs) = scan (depth + 1) cs + 2 := by
        simp [scan]
      rw [List.intercalate_cons_cons, List.append_assoc, List.append_assoc, htext,
        List.cons_append, List.cons_append, List.nil_append, hseparator, ih]
      simp only [List.length_append, List.length_cons, List.length_nil]
      omega

end Balanced

/-- Balanced texts can be read back from the list of them that ends with a bracket, except that one
empty text looks like none. -/
theorem intercalate_inj {texts texts' : List (List Char)} (h : ∀ text ∈ texts, Balanced text)
    (h' : ∀ text ∈ texts', Balanced text) (hnil : texts = [] ↔ texts' = [])
    (heq : [',', ' '].intercalate texts ++ ['>'] = [',', ' '].intercalate texts' ++ ['>']) :
    texts = texts' := by
  have hstop : scan 0 ['>'] = 0 := rfl
  have hcomma (cs : List Char) : scan 0 (',' :: cs) = 0 := rfl
  induction texts generalizing texts' with
  | nil => exact (hnil.1 rfl).symm
  | cons text texts ih =>
    cases texts' with
    | nil => exact absurd (hnil.2 rfl) (List.cons_ne_nil text texts)
    | cons text' texts' =>
      have htext := h text List.mem_cons_self
      have htext' := h' text' List.mem_cons_self
      -- the first texts end where the scan stops, and so both lists go on or both end there
      cases texts with
      | nil =>
        cases texts' with
        | nil =>
          simp only [List.intercalate_singleton] at heq
          rw [(htext.append_inj htext' hstop hstop heq).1]
        | cons next' texts' =>
          simp only [List.intercalate_singleton, List.intercalate_cons_cons, List.append_assoc,
            List.cons_append] at heq
          have hends := (htext.append_inj htext' hstop (hcomma _) heq).2
          exact absurd (List.cons.inj hends).1 (by decide)
      | cons next texts =>
        cases texts' with
        | nil =>
          simp only [List.intercalate_singleton, List.intercalate_cons_cons, List.append_assoc,
            List.cons_append] at heq
          have hends := (htext.append_inj htext' (hcomma _) hstop heq).2
          exact absurd (List.cons.inj hends).1 (by decide)
        | cons next' texts' =>
          simp only [List.intercalate_cons_cons, List.append_assoc, List.cons_append,
            List.nil_append] at heq
          obtain ⟨rfl, heq⟩ := htext.append_inj htext' (hcomma _) (hcomma _) heq
          rw [ih (fun t ht ↦ h t (List.mem_cons_of_mem _ ht))
            (fun t ht ↦ h' t (List.mem_cons_of_mem _ ht)) (by simp) (by simpa using heq)]

/-! ### Applied names -/

/-- A name, applied to other names. -/
def appliedName (base : String) (names : List String) : String :=
  base ++ "<" ++ String.intercalate ", " names ++ ">"

section AppliedName

variable {base base' : String} {names names' : List String}

/-- The name of an instance as a list of characters, as the scan reads it. -/
theorem toList_appliedName (base : String) (names : List String) :
    (appliedName base names).toList =
      base.toList ++ '<' :: ([',', ' '].intercalate (names.map String.toList) ++ ['>']) := by
  have hcomma : ", ".toList = [',', ' '] := rfl
  have hopen : "<".toList = ['<'] := rfl
  have hclose : ">".toList = ['>'] := rfl
  simp [appliedName, String.toList_append, String.toList_intercalate, hcomma, hopen, hclose]

private theorem forall_mem_map_toList {P : List Char → Prop} (h : ∀ name ∈ names, P name.toList) :
    ∀ text ∈ names.map String.toList, P text := by
  intro text htext
  obtain ⟨name, hname, rfl⟩ := List.mem_map.1 htext
  exact h name hname

/-- An applied name is balanced if the names in brackets are. -/
theorem balanced_appliedName (hbase : SimpleName base)
    (hnames : ∀ name ∈ names, Balanced name.toList) : Balanced (appliedName base names).toList := by
  intro depth rest
  have hopen (cs : List Char) : scan depth ('<' :: cs) = scan (depth + 1) cs + 1 := by
    simp [scan]
  have hclose : scan (depth + 1) ('>' :: rest) = scan depth rest + 1 := by
    simp [scan]
  rw [toList_appliedName, List.append_assoc, Balanced.of_simple hbase, List.cons_append, hopen,
    List.append_assoc, Balanced.scan_intercalate (forall_mem_map_toList hnames), List.cons_append,
    List.nil_append, hclose]
  simp only [List.length_append, List.length_cons, List.length_nil]
  omega

/-- An applied name is not simple. -/
theorem not_simple_appliedName (base : String) (names : List String) :
    ¬ SimpleName (appliedName base names) := by
  intro h
  have hmem : '<' ∈ (appliedName base names).toList := by
    rw [toList_appliedName]
    simp
  exact (h '<' hmem).1 rfl

/-- A simple name ends before the first bracket. -/
theorem takeWhile_simple {name : String} (h : SimpleName name) (cs : List Char) :
    (name.toList ++ '<' :: cs).takeWhile (· != '<') = name.toList := by
  rw [List.takeWhile_append_of_pos fun c hc ↦ by simpa using (h c hc).1]
  simp

/-- The name that is applied can be read back, and so can the names in brackets if they are balanced
and none of the lists is taken for an empty one. -/
theorem appliedName_injective (hbase : SimpleName base) (hbase' : SimpleName base')
    (h : appliedName base names = appliedName base' names') :
    base = base' ∧ ((names = [] ↔ names' = []) → (∀ name ∈ names, Balanced name.toList) →
      (∀ name ∈ names', Balanced name.toList) → names = names') := by
  have heq := congrArg String.toList h
  rw [toList_appliedName, toList_appliedName] at heq
  obtain ⟨hbases, hrest⟩ : base.toList = base'.toList ∧ _ := by
    have htaken := congrArg (List.takeWhile (· != '<')) heq
    rw [takeWhile_simple hbase, takeWhile_simple hbase'] at htaken
    rw [htaken] at heq
    exact ⟨htaken, List.tail_eq_of_cons_eq (List.append_cancel_left heq)⟩
  refine ⟨String.toList_inj.1 hbases, fun hnil hnames hnames' ↦ ?_⟩
  have htexts := intercalate_inj (forall_mem_map_toList hnames) (forall_mem_map_toList hnames')
    (by simpa using hnil) hrest
  exact List.map_injective_iff.2 (fun _ _ ↦ String.toList_inj.1) htexts

end AppliedName

/-! ### Names of instances -/

namespace Registry

variable {r r' : Registry} {base base' : String} {args args' : List Fingerprint}

/-- The registry names an instance by the names of its arguments. -/
theorem instanceName_eq (r : Registry) (base : String) (args : List Fingerprint) :
    r.instanceName base args = appliedName base (args.map r.typeName) := rfl

/-- The name of an instance is the same in two registries that know the arguments by the same
names. -/
theorem instanceName_congr (h : ∀ arg ∈ args, r'.typeName arg = r.typeName arg) :
    r'.instanceName base args = r.instanceName base args := by
  unfold instanceName
  rw [List.map_congr_left h]

/-- The name of an instance is balanced if those of its arguments are. -/
theorem balanced_instanceName (hbase : SimpleName base)
    (hargs : ∀ arg ∈ args, Balanced (r.typeName arg).toList) :
    Balanced (r.instanceName base args).toList :=
  balanced_appliedName hbase (List.forall_mem_map.2 hargs)

/-- The name of the template can be read back from the name of an instance, and so can the names of
the arguments if there are any. -/
theorem instanceName_injective (hbase : SimpleName base) (hbase' : SimpleName base')
    (h : r.instanceName base args = r.instanceName base' args') :
    base = base' ∧ ((args = [] ↔ args' = []) →
      (∀ arg ∈ args, Balanced (r.typeName arg).toList) →
      (∀ arg ∈ args', Balanced (r.typeName arg).toList) →
        args.map r.typeName = args'.map r.typeName) := by
  obtain ⟨hnames, hargs⟩ := appliedName_injective hbase hbase' h
  exact ⟨hnames, fun hnil hbalanced hbalanced' ↦ hargs (by simpa using hnil)
    (List.forall_mem_map.2 hbalanced) (List.forall_mem_map.2 hbalanced')⟩

end Registry

end StackLowering
