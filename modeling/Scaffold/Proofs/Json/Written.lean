import Scaffold.Proofs.Json.Numbers
import Scaffold.Proofs.Json.Strings

/-!
# Written values are read back

The tree that is read from the text of a value denotes that value.  What the text leaves open, the
places in the tree, does not matter to it.
-/

namespace Scaffold.Json

open Data Value

/-! ## Values and their trees -/

mutual

/-- A tree nested within the limit that holds the value and nothing else, and whose only faults may
be in its numbers.  What stands for a number is told by `N`. -/
inductive Holds (N : Tree → Numeral → Prop) : Tree → Value → Prop
  | null (p q : Position) : Holds N (.null p q) .null
  | bool (p q : Position) (b : Bool) : Holds N (.bool p q b) (.bool b)
  | integer {t : Tree} {i : Int} (h : N t (.integer i)) : Holds N t (.integer i)
  | float {t : Tree} {x : Double} (h : N t (.float x)) : Holds N t (.float x)
  | string (p q : Position) (s : String) : Holds N (.string p q (.ok s)) (.string s)
  | array (p : Position) {n : Nat} {items : Items} {vs : List Value} (hn : n < nestingLimit)
      (h : ItemsHold N items vs) : Holds N (.list p n items) (.array vs)
  | object (p : Position) {n : Nat} {members : Members} {ms : List (String × Value)}
      (hn : n < nestingLimit) (h : MembersHold N members ms) :
      Holds N (.object p n members) (.object ms)

inductive ItemsHold (N : Tree → Numeral → Prop) : Items → List Value → Prop
  | done (stop : Position) : ItemsHold N (.done (.closed stop)) []
  | more (stop : Position) (early : Fault) {t : Tree} {v : Value} {rest : Items} {vs : List Value}
      (h : Holds N t v) (hrest : ItemsHold N rest vs) :
      ItemsHold N (.more stop early t rest) (v :: vs)

inductive MembersHold (N : Tree → Numeral → Prop) : Members → List (String × Value) → Prop
  | done (stop : Position) : MembersHold N (.done (.closed stop)) []
  | more (stop last leave : Position) {k : String} {t : Tree} {v : Value} {rest : Members}
      {ms : List (String × Value)} (h : Holds N t v) (hrest : MembersHold N rest ms) :
      MembersHold N (.more stop ⟨.ok k, last, leave⟩ t rest) ((k, v) :: ms)

end

def IsNumber (t : Tree) (n : Numeral) : Prop := ∃ p q, t = .number p q (.ok n)

/-- A tree without faults that holds the value and nothing else. -/
abbrev Denotes : Tree → Value → Prop := Holds IsNumber

abbrev ItemsDenote : Items → List Value → Prop := ItemsHold IsNumber

abbrev MembersDenote : Members → List (String × Value) → Prop := MembersHold IsNumber

/-- A value whose containers are nested at most so deep and whose numbers have the property. -/
inductive Within (P : Numeral → Prop) : Nat → Value → Prop
  | null {n : Nat} : Within P n .null
  | bool {n : Nat} (b : Bool) : Within P n (.bool b)
  | integer {n : Nat} {i : Int} (h : P (.integer i)) : Within P n (.integer i)
  | float {n : Nat} {x : Double} (h : P (.float x)) : Within P n (.float x)
  | string {n : Nat} (s : String) : Within P n (.string s)
  | array {n : Nat} {vs : List Value} (h : ∀ v ∈ vs, Within P n v) : Within P (n + 1) (.array vs)
  | object {n : Nat} {ms : List (String × Value)} (h : ∀ e ∈ ms, Within P n e.2) :
      Within P (n + 1) (.object ms)

mutual

def Value.numerals : Value → List Numeral
  | .integer i => [.integer i]
  | .float x => [.float x]
  | .array items => itemNumerals items
  | .object members => memberNumerals members
  | _ => []

def Value.itemNumerals : List Value → List Numeral
  | [] => []
  | v :: vs => v.numerals ++ itemNumerals vs

def Value.memberNumerals : List (String × Value) → List Numeral
  | [] => []
  | (_, v) :: ms => v.numerals ++ memberNumerals ms

end

theorem numerals_subset_items {v : Value} {vs : List Value} (h : v ∈ vs) :
    v.numerals ⊆ itemNumerals vs := by
  induction vs with
  | nil => cases h
  | cons w vs ih =>
      rw [itemNumerals]
      rcases List.mem_cons.mp h with rfl | h
      · exact List.subset_append_left _ _
      · exact List.subset_append_of_subset_right _ (ih h)

theorem numerals_subset_members {e : String × Value} {ms : List (String × Value)} (h : e ∈ ms) :
    e.2.numerals ⊆ memberNumerals ms := by
  induction ms with
  | nil => cases h
  | cons f ms ih =>
      rw [memberNumerals]
      rcases List.mem_cons.mp h with rfl | h
      · exact List.subset_append_left _ _
      · exact List.subset_append_of_subset_right _ (ih h)

/-- What holds of all numbers of a value may be replaced by what follows from it. -/
theorem Within.imp {P Q : Numeral → Prop} {n : Nat} {v : Value} (h : Within P n v)
    (himp : ∀ m ∈ v.numerals, P m → Q m) : Within Q n v := by
  induction h with
  | null => exact .null
  | bool b => exact .bool b
  | string s => exact .string s
  | integer h => exact .integer (himp _ (by simp [Value.numerals]) h)
  | float h => exact .float (himp _ (by simp [Value.numerals]) h)
  | array h ih =>
      refine .array fun v hv ↦ ih v hv fun m hm ↦ himp m ?_
      rw [Value.numerals]
      exact numerals_subset_items hv hm
  | object h ih =>
      refine .object fun e he ↦ ih e he fun m hm ↦ himp m ?_
      rw [Value.numerals]
      exact numerals_subset_members he hm

def numeralText : Numeral → String
  | .integer i => writeInt i
  | .float x => Layout.document.write x

/-- A number whose text is read as the number. -/
def Rereads (n : Numeral) : Prop := Spells (numeralText n).toList n

/-- The text is read as some number, wherever it stands and whatever follows it. -/
structure ScansAs (N : Tree → Numeral → Prop) (n : Numeral) : Prop where
  starts : ∃ c ds, (numeralText n).toList = c :: ds ∧ (c = '-' ∨ isDigit c)
  scan : ∀ rest, EndsNumber rest → ∀ p, ∃ t stop,
    scanNumberTree ((numeralText n).toList ++ rest) p = (t, some ⟨rest, stop⟩) ∧ N t n

theorem ScansAs.length_pos {N : Tree → Numeral → Prop} {n : Numeral} (h : ScansAs N n) :
    0 < (numeralText n).toList.length := by
  obtain ⟨c, ds, hcs, -⟩ := h.starts
  rw [hcs]
  exact Nat.succ_pos _

theorem Rereads.scansAs {n : Numeral} (h : Rereads n) : ScansAs IsNumber n where
  starts := h.starts
  scan rest hrest p := by
    obtain ⟨stop, hstop⟩ := h.scan rest hrest p
    exact ⟨_, stop, hstop, p, stop, rfl⟩

/-! ## White space and lines -/

/-- The space in front of a line is skipped. -/
theorem skipSpace_newline (depth : Nat) (cs : List Char) (p : Position) :
    ∃ q, skipSpace ((newline depth).toList ++ cs) p = skipSpace cs q := by
  have hspaces : ∀ (n : Nat) (p : Position),
      ∃ q, skipSpace (List.replicate n ' ' ++ cs) p = skipSpace cs q := by
    intro n
    induction n with
    | zero => exact fun p ↦ ⟨p, rfl⟩
    | succ n ih =>
        intro p
        obtain ⟨q, hq⟩ := ih (p.after ' ')
        exact ⟨q, by rw [List.replicate_succ, List.cons_append, skipSpace, if_pos (by decide), hq]⟩
  obtain ⟨q, hq⟩ := hspaces (2 * depth) (p.after '\n')
  refine ⟨q, ?_⟩
  simp only [newline, String.toList_append, String.toList_ofList, List.append_assoc]
  exact hq

theorem skipSpace_of_not_isSpace {c : Char} (hc : isSpace c = false) (cs : List Char)
    (p : Position) : skipSpace (c :: cs) p = ⟨c :: cs, p⟩ := by
  rw [skipSpace, hc, if_neg (by decide)]

/-- What stands behind the first of the lines between brackets. -/
def linesTail (closing : Char) (depth : Nat) : List String → List Char
  | [] => (newline depth).toList ++ [closing]
  | line :: lines =>
      ',' :: (newline (depth + 1)).toList ++ line.toList ++ linesTail closing depth lines

theorem toList_intercalate_lines (separator line : String) (lines : List String) :
    (String.intercalate separator (line :: lines)).toList =
      line.toList ++ lines.flatMap fun l ↦ separator.toList ++ l.toList := by
  induction lines generalizing line with
  | nil => simp
  | cons l lines ih =>
      rw [String.intercalate_cons_cons, String.toList_append, ih]
      simp

theorem toList_bracketed (opening closing : Char) (depth : Nat) (line : String)
    (lines : List String) :
    (bracketed (String.singleton opening) (String.singleton closing) depth (line :: lines)).toList =
      opening :: (newline (depth + 1)).toList ++ line.toList ++
        linesTail closing depth lines := by
  have htail : ∀ ls : List String, (ls.flatMap fun l ↦
      (',' :: (newline (depth + 1)).toList) ++ l.toList) ++ (newline depth).toList ++ [closing] =
        linesTail closing depth ls := by
    intro ls
    induction ls with
    | nil => rfl
    | cons l ls ih => simp [linesTail, ← ih]
  simp only [bracketed, String.toList_append, toList_intercalate_lines, String.toList_singleton]
  rw [← htail]
  simp

/-! ## Scanning the text of a value -/

variable {N : Tree → Numeral → Prop} {n k : Nat} {v : Value} {rest : List Char}

theorem scanValue_string (fuel n : Nat) (s : String) (rest : List Char) (p : Position) :
    ∃ q, scanValue (fuel + 1) n ⟨(writeString s).toList ++ rest, p⟩ =
      (.string p q (.ok s), some ⟨rest, q⟩) := by
  obtain ⟨q, hq⟩ := scanStringTree_written s rest p
  refine ⟨q, ?_⟩
  rw [toList_writeString, scanValue]
  exact hq

/-- A number begins with no character that anything else begins with. -/
theorem not_mem_of_number_start {c : Char} (hc : c = '-' ∨ isDigit c = true) :
    c ∉ ['"', '[', ']', '\x7b', 'n', 't', 'f', ' ', '\n', '\t', '\r'] := by
  rcases hc with rfl | hc
  · decide
  · intro hmem
    have hnone : (['"', '[', ']', '\x7b', 'n', 't', 'f', ' ', '\n', '\t', '\r'].all
        fun d ↦ !isDigit d) = true := by
      decide
    have hnot := List.all_eq_true.mp hnone c hmem
    simp [hc] at hnot

theorem scanValue_of_number_start {c : Char} (hc : c = '-' ∨ isDigit c = true) (fuel n : Nat)
    (cs : List Char) (p : Position) :
    scanValue (fuel + 1) n ⟨c :: cs, p⟩ = scanNumberTree (c :: cs) p := by
  have hother := not_mem_of_number_start hc
  simp only [List.mem_cons, not_or] at hother
  obtain ⟨hquote, hlist, -, hobject, hn, ht, hf, -⟩ := hother
  rw [scanValue]
  split <;> simp_all only [List.cons.injEq, false_and, reduceCtorEq, if_true]

theorem scanValue_number {m : Numeral} (h : ScansAs N m) (fuel n : Nat) (hrest : EndsNumber rest)
    (p : Position) :
    ∃ t q, scanValue (fuel + 1) n ⟨(numeralText m).toList ++ rest, p⟩ = (t, some ⟨rest, q⟩) ∧
      N t m := by
  obtain ⟨t, q, hq, ht⟩ := h.scan rest hrest p
  obtain ⟨c, ds, hcs, hc⟩ := h.starts
  refine ⟨t, q, ?_, ht⟩
  rw [hcs, List.cons_append] at hq ⊢
  rw [scanValue_of_number_start hc, hq]

/-- A word is read where it stands. -/
theorem scanWord_self (word rest : List Char) (p : Position) (value : Position → Tree) :
    ∃ q, scanWord p word (word ++ rest) value = (value q, some ⟨rest, q⟩) := by
  have hread : ∀ (ws : List Char) (p : Position),
      ∃ q, readWord ws (ws ++ rest) p = .ok ⟨rest, q⟩ := by
    intro ws
    induction ws with
    | nil => exact fun p ↦ ⟨p, rfl⟩
    | cons w ws ih =>
        intro p
        obtain ⟨q, hq⟩ := ih (p.after w)
        exact ⟨q, by rw [List.cons_append, readWord, if_pos rfl, hq]⟩
  obtain ⟨q, hq⟩ := hread word p
  exact ⟨q, by rw [scanWord, hq]⟩

theorem scanValue_null (fuel n : Nat) (rest : List Char) (p : Position) :
    ∃ q, scanValue (fuel + 1) n ⟨"null".toList ++ rest, p⟩ =
      (.null p q, some ⟨rest, q⟩) := by
  obtain ⟨q, hq⟩ := scanWord_self "null".toList rest p (.null p ·)
  refine ⟨q, ?_⟩
  have hword : "null".toList ++ rest = 'n' :: ("ull".toList ++ rest) := by simp
  rw [hword] at hq ⊢
  rw [scanValue]
  exact hq

/-- A truth value is read where it stands. -/
theorem scanValue_bool (fuel n : Nat) (b : Bool) (rest : List Char) (p : Position) :
    ∃ q, scanValue (fuel + 1) n ⟨(if b then "true" else "false").toList ++ rest, p⟩ =
      (.bool p q b, some ⟨rest, q⟩) := by
  cases b with
  | true =>
      obtain ⟨q, hq⟩ := scanWord_self "true".toList rest p (.bool p · true)
      refine ⟨q, ?_⟩
      have hword : "true".toList ++ rest = 't' :: ("rue".toList ++ rest) := by simp
      rw [if_pos rfl]
      rw [hword] at hq ⊢
      rw [scanValue]
      exact hq
  | false =>
      obtain ⟨q, hq⟩ := scanWord_self "false".toList rest p (.bool p · false)
      refine ⟨q, ?_⟩
      have hword : "false".toList ++ rest = 'f' :: ("alse".toList ++ rest) := by simp
      rw [if_neg (by decide)]
      rw [hword] at hq ⊢
      rw [scanValue]
      exact hq

/-- The text of a value begins with a character that is no white space and no closing bracket. -/
theorem prettyAt_head (h : Within (ScansAs N) k v) (depth : Nat) :
    ∃ c cs, (prettyAt depth v).toList = c :: cs ∧ isSpace c = false ∧ c ≠ ']' := by
  cases h with
  | null => exact ⟨'n', ['u', 'l', 'l'], by simp [prettyAt], by decide, by decide⟩
  | bool b =>
      cases b with
      | false => exact ⟨'f', ['a', 'l', 's', 'e'], by simp [prettyAt], by decide, by decide⟩
      | true => exact ⟨'t', ['r', 'u', 'e'], by simp [prettyAt], by decide, by decide⟩
  | string s =>
      refine ⟨'"', s.toList.flatMap escape ++ ['"'], ?_, by decide, by decide⟩
      rw [prettyAt]
      simpa using toList_writeString s []
  | integer h | float h =>
      obtain ⟨c, cs, hcs, hc⟩ := h.starts
      refine ⟨c, cs, hcs, ?_⟩
      have hother := not_mem_of_number_start hc
      simp only [List.mem_cons, not_or] at hother
      simp [isSpace, hother]
  | array h =>
      rename_i vs
      cases vs with
      | nil => exact ⟨'[', [']'], by simp [prettyAt, prettyItems, bracketed], by decide, by decide⟩
      | cons v vs =>
          exact ⟨'[', _, toList_bracketed '[' ']' depth _ _, by decide, by decide⟩
  | object h =>
      rename_i ms
      cases ms with
      | nil =>
          exact ⟨'\x7b', ['\x7d'], by simp [prettyAt, prettyMembers, bracketed], by decide,
            by decide⟩
      | cons e ms =>
          exact ⟨'\x7b', _, toList_bracketed '\x7b' '\x7d' depth _ _, by decide, by decide⟩

/-! ## Items and members -/

theorem scanItems_first {c : Char} (hc : c ≠ ']') {cs : List Char} {d : Cursor}
    (hd : d.rest = c :: cs) (fuel n : Nat) :
    scanItems (fuel + 1) n true d = scanItem fuel n d d := by
  simp only [scanItems, hd]
  split <;> simp_all

theorem scanItems_comma {c : Char} (hc : c ≠ ']') {cs ds : List Char} {d : Cursor}
    (hd : d.rest = c :: ds) {p : Position} (h : skipSpace cs p.next = d) (fuel n : Nat) :
    scanItems (fuel + 1) n false ⟨',' :: cs, p⟩ = scanItem fuel n ⟨',' :: cs, p⟩ d := by
  simp [scanItems, h, hd]
  split <;> simp_all

theorem scanItem_more {fuel n : Nat} {before c after : Cursor} {t : Tree}
    {items : Scanned Items} (hvalue : scanValue fuel n c = (t, some after))
    (hrest : scanItems fuel n false (skipSpace after.rest after.position) = items) :
    ∃ stop early, scanItem (fuel + 1) n before c = (.more stop early t items.1, items.2) := by
  refine ⟨(leaveList before).1, (leaveList before).2, ?_⟩
  simp only [scanItem, hvalue, hrest]

theorem scanMembers_first (fuel n : Nat) (key : String) (cs : List Char) (p : Position) :
    scanMembers (fuel + 1) n true ⟨(writeString key).toList ++ cs, p⟩ =
      scanMember fuel n ⟨(writeString key).toList ++ cs, p⟩
        ⟨(writeString key).toList ++ cs, p⟩ := by
  simp [scanMembers, toList_writeString]

theorem scanMembers_comma {cs ds : List Char} {p q : Position} {key : String}
    (h : skipSpace ds p.next = ⟨(writeString key).toList ++ cs, q⟩) (fuel n : Nat) :
    scanMembers (fuel + 1) n false ⟨',' :: ds, p⟩ =
      scanMember fuel n ⟨',' :: ds, p⟩ ⟨(writeString key).toList ++ cs, q⟩ := by
  simp [scanMembers, h, toList_writeString]

/-- A member is read as its key and the value behind the colon. -/
theorem scanMember_more (fuel n : Nat) (before : Cursor) (key : String) {cs : List Char}
    (hcs : ∀ q, skipSpace cs q = ⟨cs, q⟩) (p : Position) :
    ∃ q last leave, ∀ t after, scanValue fuel n ⟨cs, q⟩ = (t, some after) →
      scanMember (fuel + 1) n before ⟨(writeString key).toList ++ ':' :: ' ' :: cs, p⟩ =
        (.more before.position ⟨.ok key, last, leave⟩ t
          (scanMembers fuel n false (skipSpace after.rest after.position)).1,
          (scanMembers fuel n false (skipSpace after.rest after.position)).2) := by
  obtain ⟨last, hlast⟩ := skipString_written key.toList (':' :: ' ' :: cs) p.next
  refine ⟨last.next.after ' ', last, leaveKey ⟨':' :: ' ' :: cs, last⟩, ?_⟩
  intro t after hvalue
  have hcolon : skipSpace (':' :: ' ' :: cs) last = ⟨':' :: ' ' :: cs, last⟩ :=
    skipSpace_of_not_isSpace (by decide) _ _
  have hspace : skipSpace (' ' :: cs) last.next = ⟨cs, last.next.after ' '⟩ := by
    rw [skipSpace, if_pos (by decide), hcs]
  rw [toList_writeString]
  simp only [scanMember, List.drop_one, List.tail_cons, hlast, hcolon, stringValue_written, if_true,
    hspace, hvalue]

/-! ## Whole values -/

/-- Inside `n` containers, the text of the value is read as a tree of it. -/
def ReadsAt (N : Tree → Numeral → Prop) (n : Nat) (v : Value) : Prop :=
  ∀ (depth fuel : Nat) (rest : List Char) (p : Position),
    3 * (prettyAt depth v).toList.length ≤ fuel → EndsNumber rest →
      ∃ t q, scanValue fuel n ⟨(prettyAt depth v).toList ++ rest, p⟩ = (t, some ⟨rest, q⟩) ∧
        Holds N t v

theorem endsNumber_linesTail (closing : Char) (depth : Nat) (lines : List String)
    (rest : List Char) : EndsNumber (linesTail closing depth lines ++ rest) := by
  cases lines with
  | nil =>
      have hnewline : (newline depth).toList = '\n' :: List.replicate (2 * depth) ' ' := by
        simp [newline]
      simp only [linesTail, hnewline]
      exact ⟨by decide, by decide, by decide, by decide⟩
  | cons line lines => exact ⟨by decide, by decide, by decide, by decide⟩

theorem skipSpace_line {cs : List Char} (hcs : ∀ q, skipSpace cs q = ⟨cs, q⟩) (depth : Nat)
    (p : Position) : ∃ q, skipSpace ((newline depth).toList ++ cs) p = ⟨cs, q⟩ := by
  obtain ⟨q, hq⟩ := skipSpace_newline depth cs p
  exact ⟨q, by rw [hq, hcs]⟩

theorem skipSpace_prettyAt (h : Within (ScansAs N) k v) (depth : Nat) (rest : List Char)
    (q : Position) :
    skipSpace ((prettyAt depth v).toList ++ rest) q = ⟨(prettyAt depth v).toList ++ rest, q⟩ := by
  obtain ⟨c, cs, hcs, hspace, -⟩ := prettyAt_head h depth
  rw [hcs, List.cons_append, skipSpace_of_not_isSpace hspace]

theorem skipSpace_writeString (s : String) (rest : List Char) (q : Position) :
    skipSpace ((writeString s).toList ++ rest) q = ⟨(writeString s).toList ++ rest, q⟩ := by
  rw [toList_writeString, skipSpace_of_not_isSpace (by decide)]

/-- One item of a list and what stands behind it. -/
theorem scanItem_readsAt (h : ReadsAt N n v) {depth fuel : Nat} {tail rest : List Char}
    {vs : List Value} (hlength : 3 * (prettyAt depth v).toList.length ≤ fuel)
    (hends : EndsNumber tail)
    (htail : ∀ p, ∃ items q, scanItems fuel n false (skipSpace tail p) = (items, some ⟨rest, q⟩) ∧
      ItemsHold N items vs) (before : Cursor) (p : Position) :
    ∃ items q, scanItem (fuel + 1) n before ⟨(prettyAt depth v).toList ++ tail, p⟩ =
      (items, some ⟨rest, q⟩) ∧ ItemsHold N items (v :: vs) := by
  obtain ⟨t, after, hvalue, ht⟩ := h depth fuel tail p hlength hends
  obtain ⟨items, q, hitems, hdenote⟩ := htail after
  obtain ⟨stop, early, hitem⟩ := scanItem_more hvalue hitems
  exact ⟨_, q, hitem, .more stop early ht hdenote⟩

/-- The rest of a list, from behind its first item. -/
theorem scanItems_linesTail {vs : List Value} (hhead : ∀ v ∈ vs, Within (ScansAs N) k v)
    (h : ∀ v ∈ vs, ReadsAt N n v) (depth : Nat) {fuel : Nat} (rest : List Char)
    (hfuel : 3 * (linesTail ']' depth (prettyItems (depth + 1) vs)).length ≤ fuel)
    (p : Position) :
    ∃ items q, scanItems fuel n false
        (skipSpace (linesTail ']' depth (prettyItems (depth + 1) vs) ++ rest) p) =
      (items, some ⟨rest, q⟩) ∧ ItemsHold N items vs := by
  induction vs generalizing fuel p with
  | nil =>
      simp only [prettyItems, linesTail, List.length_append, List.length_singleton] at hfuel ⊢
      obtain ⟨fuel, rfl⟩ : ∃ f, fuel = f + 1 := ⟨fuel - 1, by omega⟩
      obtain ⟨q, hq⟩ := skipSpace_line
        (skipSpace_of_not_isSpace (c := ']') (by decide) rest) depth p
      refine ⟨_, q.next, ?_, .done q.next⟩
      rw [List.append_assoc, List.singleton_append, hq]
      simp [scanItems]
  | cons v vs ih =>
      rw [List.forall_mem_cons] at hhead h
      simp only [prettyItems, linesTail, List.cons_append, List.append_assoc, List.length_cons,
        List.length_append] at hfuel ⊢
      obtain ⟨fuel, rfl⟩ : ∃ f, fuel = f + 2 := ⟨fuel - 2, by omega⟩
      obtain ⟨c, cs, hcs, -, hclose⟩ := prettyAt_head hhead.1 (depth + 1)
      obtain ⟨q, hq⟩ := skipSpace_line (skipSpace_prettyAt hhead.1 (depth + 1) _) (depth + 1) p.next
      rw [skipSpace_of_not_isSpace (by decide),
        scanItems_comma hclose (by rw [hcs, List.cons_append]) hq]
      exact scanItem_readsAt h.1 (by omega) (endsNumber_linesTail ..)
        (ih hhead.2 h.2 (by omega)) _ _

theorem toList_memberLine (key : String) (depth : Nat) (v : Value) :
    (writeString key ++ ": " ++ prettyAt depth v).toList =
      (writeString key).toList ++ ':' :: ' ' :: (prettyAt depth v).toList := by
  simp

/-- One member of an object and what stands behind it. -/
theorem scanMember_readsAt (hhead : Within (ScansAs N) k v) (h : ReadsAt N n v) (key : String)
    {depth fuel : Nat} {tail rest : List Char} {ms : List (String × Value)}
    (hlength : 3 * (prettyAt depth v).toList.length ≤ fuel) (hends : EndsNumber tail)
    (htail : ∀ p, ∃ members q, scanMembers fuel n false (skipSpace tail p) =
      (members, some ⟨rest, q⟩) ∧ MembersHold N members ms) (before : Cursor) (p : Position) :
    ∃ members q, scanMember (fuel + 1) n before
        ⟨(writeString key).toList ++ ':' :: ' ' :: ((prettyAt depth v).toList ++ tail), p⟩ =
      (members, some ⟨rest, q⟩) ∧ MembersHold N members ((key, v) :: ms) := by
  obtain ⟨start, last, leave, hmember⟩ :=
    scanMember_more fuel n before key (skipSpace_prettyAt hhead depth tail) p
  obtain ⟨t, after, hvalue, ht⟩ := h depth fuel tail start hlength hends
  obtain ⟨members, q, hmembers, hdenote⟩ := htail after
  refine ⟨_, q, ?_, .more before.position last leave ht hdenote⟩
  rw [hmember _ _ hvalue, hmembers]

/-- The rest of an object, from behind its first member. -/
theorem scanMembers_linesTail {ms : List (String × Value)}
    (hhead : ∀ e ∈ ms, Within (ScansAs N) k e.2) (h : ∀ e ∈ ms, ReadsAt N n e.2) (depth : Nat)
    {fuel : Nat} (rest : List Char)
    (hfuel : 3 * (linesTail '\x7d' depth (prettyMembers (depth + 1) ms)).length ≤ fuel)
    (p : Position) :
    ∃ members q, scanMembers fuel n false
        (skipSpace (linesTail '\x7d' depth (prettyMembers (depth + 1) ms) ++ rest) p) =
      (members, some ⟨rest, q⟩) ∧ MembersHold N members ms := by
  induction ms generalizing fuel p with
  | nil =>
      simp only [prettyMembers, linesTail, List.length_append, List.length_singleton] at hfuel ⊢
      obtain ⟨fuel, rfl⟩ : ∃ f, fuel = f + 1 := ⟨fuel - 1, by omega⟩
      obtain ⟨q, hq⟩ := skipSpace_line
        (skipSpace_of_not_isSpace (c := '\x7d') (by decide) rest) depth p
      refine ⟨_, q.next, ?_, .done q.next⟩
      rw [List.append_assoc, List.singleton_append, hq]
      simp [scanMembers]
  | cons e ms ih =>
      obtain ⟨key, v⟩ := e
      obtain ⟨hheadv, hhead⟩ := List.forall_mem_cons.mp hhead
      obtain ⟨hv, h⟩ := List.forall_mem_cons.mp h
      simp only at hheadv hv
      simp only [prettyMembers, linesTail, toList_memberLine, List.cons_append, List.append_assoc,
        List.length_cons, List.length_append] at hfuel ⊢
      obtain ⟨fuel, rfl⟩ : ∃ f, fuel = f + 2 := ⟨fuel - 2, by omega⟩
      obtain ⟨q, hq⟩ := skipSpace_line (skipSpace_writeString key _) (depth + 1) p.next
      rw [skipSpace_of_not_isSpace (by decide), scanMembers_comma hq]
      exact scanMember_readsAt hheadv hv key (by omega) (endsNumber_linesTail ..)
        (ih hhead h (by omega)) _ _

theorem scanValue_array {fuel n : Nat} {cs : List Char} {p : Position} {items : Items}
    {after : Option Cursor}
    (h : scanItems fuel (n + 1) true (skipSpace cs p.next) = (items, after)) :
    scanValue (fuel + 1) n ⟨'[' :: cs, p⟩ = (.list p (n + 1) items, after) := by
  rw [scanValue]
  simp [h]

theorem scanValue_object {fuel n : Nat} {cs : List Char} {p : Position} {members : Members}
    {after : Option Cursor}
    (h : scanMembers fuel (n + 1) true (skipSpace cs p.next) = (members, after)) :
    scanValue (fuel + 1) n ⟨'\x7b' :: cs, p⟩ = (.object p (n + 1) members, after) := by
  rw [scanValue]
  simp [h]

/-- A list is read where it stands if its items are, one level deeper. -/
theorem readsAt_array {vs : List Value} (hhead : ∀ v ∈ vs, Within (ScansAs N) k v)
    (h : ∀ v ∈ vs, ReadsAt N (n + 1) v) (hn : n + 1 < nestingLimit) : ReadsAt N n (.array vs) := by
  intro depth fuel rest p hfuel hrest
  cases vs with
  | nil =>
      have htext : (prettyAt depth (.array [])).toList = ['[', ']'] := by
        simp [prettyAt, prettyItems, bracketed]
      rw [htext] at hfuel ⊢
      obtain ⟨fuel, rfl⟩ : ∃ f, fuel = f + 2 := ⟨fuel - 2, by simp at hfuel; omega⟩
      have hitems : scanItems (fuel + 1) (n + 1) true (skipSpace (']' :: rest) p.next) =
          (.done (.closed p.next.next), some ⟨rest, p.next.next⟩) := by
        rw [skipSpace_of_not_isSpace (by decide)]
        simp [scanItems]
      exact ⟨_, _, scanValue_array hitems, .array p hn (.done _)⟩
  | cons v vs =>
      have htext : (prettyAt depth (.array (v :: vs))).toList = '[' ::
          ((newline (depth + 1)).toList ++ ((prettyAt (depth + 1) v).toList ++
            linesTail ']' depth (prettyItems (depth + 1) vs))) := by
        rw [prettyAt, prettyItems]
        simpa using toList_bracketed '[' ']' depth _ _
      rw [htext] at hfuel ⊢
      simp only [List.length_cons, List.length_append] at hfuel
      simp only [List.cons_append, List.append_assoc]
      obtain ⟨fuel, rfl⟩ : ∃ f, fuel = f + 3 := ⟨fuel - 3, by omega⟩
      rw [List.forall_mem_cons] at hhead h
      obtain ⟨c, cs, hcs, -, hclose⟩ := prettyAt_head hhead.1 (depth + 1)
      suffices hitems : ∃ items r, scanItems (fuel + 2) (n + 1) true
          (skipSpace ((newline (depth + 1)).toList ++ ((prettyAt (depth + 1) v).toList ++
            (linesTail ']' depth (prettyItems (depth + 1) vs) ++ rest))) p.next) =
          (items, some ⟨rest, r⟩) ∧ ItemsHold N items (v :: vs) by
        obtain ⟨items, r, hitems, hdenote⟩ := hitems
        exact ⟨_, r, scanValue_array hitems, .array p hn hdenote⟩
      obtain ⟨q, hq⟩ := skipSpace_line (skipSpace_prettyAt hhead.1 (depth + 1) _) (depth + 1) p.next
      rw [hq, scanItems_first hclose (by rw [hcs, List.cons_append])]
      exact scanItem_readsAt h.1 (by omega) (endsNumber_linesTail ..)
        (scanItems_linesTail hhead.2 h.2 depth rest (by omega)) _ _

/-- An object is read where it stands if its values are, one level deeper. -/
theorem readsAt_object {ms : List (String × Value)} (hhead : ∀ e ∈ ms, Within (ScansAs N) k e.2)
    (h : ∀ e ∈ ms, ReadsAt N (n + 1) e.2) (hn : n + 1 < nestingLimit) :
    ReadsAt N n (.object ms) := by
  intro depth fuel rest p hfuel hrest
  cases ms with
  | nil =>
      have htext : (prettyAt depth (.object [])).toList = ['\x7b', '\x7d'] := by
        simp [prettyAt, prettyMembers, bracketed]
      rw [htext] at hfuel ⊢
      obtain ⟨fuel, rfl⟩ : ∃ f, fuel = f + 2 := ⟨fuel - 2, by simp at hfuel; omega⟩
      have hmembers : scanMembers (fuel + 1) (n + 1) true (skipSpace ('\x7d' :: rest) p.next) =
          (.done (.closed p.next.next), some ⟨rest, p.next.next⟩) := by
        rw [skipSpace_of_not_isSpace (by decide)]
        simp [scanMembers]
      exact ⟨_, _, scanValue_object hmembers, .object p hn (.done _)⟩
  | cons e ms =>
      obtain ⟨key, v⟩ := e
      have htext : (prettyAt depth (.object ((key, v) :: ms))).toList = '\x7b' ::
          ((newline (depth + 1)).toList ++ ((writeString key).toList ++ ':' :: ' ' ::
            ((prettyAt (depth + 1) v).toList ++
              linesTail '\x7d' depth (prettyMembers (depth + 1) ms)))) := by
        rw [prettyAt, prettyMembers]
        simpa using toList_bracketed '\x7b' '\x7d' depth (writeString key ++ ": " ++ _) _
      rw [htext] at hfuel ⊢
      simp only [List.length_cons, List.length_append] at hfuel
      simp only [List.cons_append, List.append_assoc]
      obtain ⟨fuel, rfl⟩ : ∃ f, fuel = f + 3 := ⟨fuel - 3, by omega⟩
      obtain ⟨hheadv, hhead⟩ := List.forall_mem_cons.mp hhead
      obtain ⟨hv, h⟩ := List.forall_mem_cons.mp h
      simp only at hheadv hv
      suffices hmembers : ∃ members r, scanMembers (fuel + 2) (n + 1) true
          (skipSpace ((newline (depth + 1)).toList ++ ((writeString key).toList ++ ':' :: ' ' ::
            ((prettyAt (depth + 1) v).toList ++
              (linesTail '\x7d' depth (prettyMembers (depth + 1) ms) ++ rest)))) p.next) =
          (members, some ⟨rest, r⟩) ∧ MembersHold N members ((key, v) :: ms) by
        obtain ⟨members, r, hmembers, hdenote⟩ := hmembers
        exact ⟨_, r, scanValue_object hmembers, .object p hn hdenote⟩
      obtain ⟨q, hq⟩ := skipSpace_line (skipSpace_writeString key _) (depth + 1) p.next
      rw [hq, scanMembers_first]
      exact scanMember_readsAt hheadv hv key (by omega) (endsNumber_linesTail ..)
        (scanMembers_linesTail hhead h depth rest (by omega)) _ _

/-- The text of a value that is not nested too deeply is read as a tree of the value. -/
theorem readsAt_of_within (h : Within (ScansAs N) k v) (hn : n + k < nestingLimit) :
    ReadsAt N n v := by
  induction h generalizing n with
  | null =>
      intro depth fuel rest p hfuel hrest
      simp only [prettyAt] at hfuel ⊢
      obtain ⟨fuel, rfl⟩ : ∃ f, fuel = f + 1 := ⟨fuel - 1, by simp at hfuel; omega⟩
      obtain ⟨q, hq⟩ := scanValue_null fuel n rest p
      exact ⟨_, q, hq, .null p q⟩
  | bool b =>
      intro depth fuel rest p hfuel hrest
      simp only [prettyAt] at hfuel ⊢
      obtain ⟨fuel, rfl⟩ : ∃ f, fuel = f + 1 := ⟨fuel - 1, by cases b <;> simp at hfuel <;> omega⟩
      obtain ⟨q, hq⟩ := scanValue_bool fuel n b rest p
      exact ⟨_, q, hq, .bool p q b⟩
  | @integer _ i h =>
      intro depth fuel rest p hfuel hrest
      simp only [prettyAt] at hfuel ⊢
      have hlength : 0 < (writeInt i).toList.length := h.length_pos
      obtain ⟨fuel, rfl⟩ : ∃ f, fuel = f + 1 := ⟨fuel - 1, by omega⟩
      obtain ⟨t, q, hq, ht⟩ := scanValue_number h fuel n hrest p
      exact ⟨t, q, hq, .integer ht⟩
  | @float _ x h =>
      intro depth fuel rest p hfuel hrest
      simp only [prettyAt] at hfuel ⊢
      have hlength : 0 < (Layout.document.write x).toList.length := h.length_pos
      obtain ⟨fuel, rfl⟩ : ∃ f, fuel = f + 1 := ⟨fuel - 1, by omega⟩
      obtain ⟨t, q, hq, ht⟩ := scanValue_number h fuel n hrest p
      exact ⟨t, q, hq, .float ht⟩
  | string s =>
      intro depth fuel rest p hfuel hrest
      simp only [prettyAt] at hfuel ⊢
      obtain ⟨fuel, rfl⟩ : ∃ f, fuel = f + 1 := ⟨fuel - 1, by simp [writeString] at hfuel; omega⟩
      obtain ⟨q, hq⟩ := scanValue_string fuel n s rest p
      exact ⟨_, q, hq, .string p q s⟩
  | array h ih => exact readsAt_array h (fun v hv ↦ ih v hv (by omega)) (by omega)
  | object h ih => exact readsAt_object h (fun e he ↦ ih e he (by omega)) (by omega)

/-- A document that is the text of a value and white space has a tree of the value. -/
theorem read_written_append (h : Within (ScansAs N) k v) (hk : k < nestingLimit) {space : String}
    (hends : EndsNumber space.toList) (hspace : ∀ p, (skipSpace space.toList p).rest = []) :
    Holds N (Document.read (v.pretty ++ space)).root v ∧
      (Document.read (v.pretty ++ space)).trailing = none := by
  have hskip := skipSpace_prettyAt h 0 space.toList .origin
  have hreads := readsAt_of_within (n := 0) h (by omega) 0
    (3 * ((prettyAt 0 v).toList ++ space.toList).length + 3) space.toList .origin
    (by rw [List.length_append]; omega) hends
  obtain ⟨t, q, hscan, ht⟩ := hreads
  simp only [Document.read, pretty, String.toList_append, hskip, hscan]
  refine ⟨ht, ?_⟩
  rw [Option.bind_some, trailingFault?, hspace q]

/-- A document that is the text of a value has a tree of the value, and nothing follows it. -/
theorem read_written (h : Within (ScansAs N) k v) (hk : k < nestingLimit) :
    Holds N (Document.read v.pretty).root v ∧ (Document.read v.pretty).trailing = none := by
  have hread := @read_written_append _ _ _ h hk "" trivial fun _ ↦ rfl
  rwa [String.append_empty] at hread

theorem read_pretty (h : Within Rereads k v) (hk : k < nestingLimit) :
    Denotes (Document.read v.pretty).root v ∧ (Document.read v.pretty).trailing = none :=
  read_written (h.imp fun _ _ ↦ Rereads.scansAs) hk

end Scaffold.Json
