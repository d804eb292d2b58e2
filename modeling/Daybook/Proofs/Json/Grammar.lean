import Mathlib
import Daybook.Json.Reader
import Daybook.Proofs.Except
import Daybook.Proofs.Json.Parsing
import Daybook.Proofs.Json.Scanning

/-!
# The texts that are read

At each place of a text that is being read, the tokens before that place are those of the containers
that are still open, up to what comes next (`Opened`, `Reached`).  A token that fits keeps this true
(`Reached.step`), so a document that is complete has all of the tokens, and nothing but proper
documents is built (`Reached.feed`).

Together with the converse, reading is settled: a text is read to its end if and only if it spells a
proper document, and it is read as that document (`parse_eq_iff`).
-/

namespace Daybook.Json

/-! ### Tokens in front of a place -/

/-- The tokens of items that were read, last first, with a comma behind each. -/
def itemsBefore (done : List Json) : List Token :=
  done.reverse.flatMap fun item => item.tokens ++ [.comma]

/-- The tokens of members that were read, last first, with a comma behind each. -/
def membersBefore (done : List (Option String × Json)) : List Token :=
  done.reverse.flatMap fun m => .string m.1 :: .colon :: (m.2.tokens ++ [.comma])

theorem itemsBefore_cons (item : Json) (done : List Json) :
    itemsBefore (item :: done) = itemsBefore done ++ (item.tokens ++ [.comma]) := by
  simp [itemsBefore]

theorem membersBefore_cons (m : Option String × Json) (done : List (Option String × Json)) :
    membersBefore (m :: done) =
      membersBefore done ++ .string m.1 :: .colon :: (m.2.tokens ++ [.comma]) := by
  simp [membersBefore]

/-- Commas behind all things but the last are commas in front of all but the first. -/
theorem flatMap_comma_append {α : Type} (tokensOf : α → List Token) (xs : List α)
    (ts : List Token) :
    (xs.flatMap fun x => .comma :: tokensOf x) ++ .comma :: ts =
      .comma :: ((xs.flatMap fun x => tokensOf x ++ [.comma]) ++ ts) := by
  induction xs with
  | nil => rfl
  | cons x xs ih => simp [ih]

theorem tokens_array (item : Json) (done : List Json) :
    (array (item :: done).reverse true).tokens =
      .openArray :: (itemsBefore done ++ (item.tokens ++ [.closeArray])) := by
  rw [List.reverse_cons, itemsBefore]
  cases done.reverse with
  | nil => simp [tokens, moreItems]
  | cons first items =>
    simp only [List.cons_append, tokens, moreItems_eq_flatMap, if_pos, List.flatMap_append,
      List.flatMap_cons, List.flatMap_nil, List.append_assoc, List.nil_append]
    rw [flatMap_comma_append]

theorem tokens_object (m : Option String × Json) (done : List (Option String × Json)) :
    (object (m :: done).reverse true).tokens =
      .openObject :: (membersBefore done ++ .string m.1 :: .colon ::
        (m.2.tokens ++ [.closeObject])) := by
  rw [List.reverse_cons, membersBefore]
  cases done.reverse with
  | nil => simp [tokens, moreMembers]
  | cons first members =>
    simp only [List.cons_append, tokens, moreMembers_eq_flatMap, if_pos, List.flatMap_append,
      List.flatMap_cons, List.flatMap_nil, List.append_assoc, List.nil_append]
    rw [flatMap_comma_append]
    rfl

/-! ### Places -/

/-- **The tokens in front of a value** that goes into the innermost of the containers that are still
open. -/
inductive Opened : List Frame → List Token → Prop where
  | nil : Opened [] []
  | items {done : List Json} {frames : List Frame} {ts : List Token} (h : Opened frames ts)
    (hdone : ∀ item ∈ done, item.Proper) :
    Opened (.items done :: frames) (ts ++ .openArray :: itemsBefore done)
  | member {key : Option String} {done : List (Option String × Json)} {frames : List Frame}
    {ts : List Token} (h : Opened frames ts) (hdone : ∀ m ∈ done, m.2.Proper) :
    Opened (.member key done :: frames)
      (ts ++ .openObject :: (membersBefore done ++ [.string key, .colon]))

/-- **The tokens in front of a place**, whatever comes next there. -/
inductive Reached : Progress → List Token → Prop where
  | value {frames : List Frame} {ts : List Token} (h : Opened frames ts) :
    Reached (.inside .value frames) ts
  | firstItem {frames : List Frame} {ts : List Token} (h : Opened frames ts) :
    Reached (.inside .firstItem (.items [] :: frames)) (ts ++ [.openArray])
  | item {item : Json} {done : List Json} {frames : List Frame} {ts : List Token}
    (h : Opened (.items done :: frames) ts) (hitem : item.Proper) :
    Reached (.inside .separator (.items (item :: done) :: frames)) (ts ++ item.tokens)
  | firstKey {frames : List Frame} {ts : List Token} (h : Opened frames ts) :
    Reached (.inside .firstKey (.members [] :: frames)) (ts ++ [.openObject])
  | key {done : List (Option String × Json)} {frames : List Frame} {ts : List Token}
    (h : Opened frames ts) (hdone : ∀ m ∈ done, m.2.Proper) :
    Reached (.inside .key (.members done :: frames)) (ts ++ .openObject :: membersBefore done)
  | colon {key : Option String} {done : List (Option String × Json)} {frames : List Frame}
    {ts : List Token} (h : Opened frames ts) (hdone : ∀ m ∈ done, m.2.Proper) :
    Reached (.inside .colon (.member key done :: frames))
      (ts ++ .openObject :: (membersBefore done ++ [.string key]))
  | member {key : Option String} {value : Json} {done : List (Option String × Json)}
    {frames : List Frame} {ts : List Token} (h : Opened (.member key done :: frames) ts)
    (hvalue : value.Proper) :
    Reached (.inside .separator (.members ((key, value) :: done) :: frames)) (ts ++ value.tokens)
  | complete {j : Json} (h : j.Proper) : Reached (.complete j) j.tokens

/-- A value that was read stands behind what was in front of it. -/
theorem Opened.supply {frames : List Frame} {ts : List Token} {j : Json} (h : Opened frames ts)
    (hj : j.Proper) : Reached (supply j frames) (ts ++ j.tokens) := by
  cases h with
  | nil => exact .complete hj
  | items h hdone => exact .item (.items h hdone) hj
  | member h hdone => exact .member (.member h hdone) hj

/-- Whether a token is one of the standard: whether its number is, if it has one. -/
def Token.Proper (t : Token) : Prop :=
  ∀ n, t = .number n → n.Proper

theorem Token.Spells.proper {t : Token} {cs : List Char} (h : t.Spells cs) : t.Proper := by
  rintro n rfl
  cases h with
  | number h => exact h.1

/-- A token that a value can begin with begins it, or is all of it. -/
theorem Opened.beginValue {frames : List Frame} {ts : List Token} {t : Token}
    {progress : Progress} (h : Opened frames ts) (ht : t.Proper)
    (hbegin : Json.beginValue frames t = some progress) : Reached progress (ts ++ [t]) := by
  cases t <;> cases hbegin
  case openArray => exact .firstItem h
  case openObject => exact .firstKey h
  case null => simpa [tokens] using h.supply .null
  case bool b => simpa [tokens] using h.supply (.bool b)
  case number n => simpa [tokens] using h.supply (.number (ht n rfl))
  case string s => simpa [tokens] using h.supply (.string s)

/-- **A token that fits** stands behind the tokens in front of it. -/
theorem Reached.step {expect : Expect} {frames : List Frame} {ts : List Token} {t : Token}
    {progress : Progress} (h : Reached (.inside expect frames) ts) (ht : t.Proper)
    (hstep : Json.step expect frames t = some progress) : Reached progress (ts ++ [t]) := by
  -- One case for each place.  A token that does not fit there leads nowhere, and `cases hstep`
  -- leaves the tokens that do.
  cases h with
  | value h => exact h.beginValue ht hstep
  | firstItem h =>
    have hopened := Opened.items h (List.forall_mem_nil _)
    cases t
    case closeArray =>
      cases hstep
      simpa [tokens] using h.supply (.array (List.forall_mem_nil _))
    all_goals exact hopened.beginValue ht hstep
  | @item item done _ _ h hitem =>
    cases h with
    | items h hdone =>
      have hdone' : ∀ item' ∈ item :: done, item'.Proper := List.forall_mem_cons.mpr ⟨hitem, hdone⟩
      cases t <;> cases hstep
      case items.comma.refl =>
        simpa [itemsBefore_cons] using Reached.value (Opened.items h hdone')
      case items.closeArray.refl =>
        have hclosed := h.supply (.array fun item' h' => hdone' item' (List.mem_reverse.mp h'))
        rw [tokens_array] at hclosed
        simpa using hclosed
  | firstKey h =>
    cases t <;> cases hstep
    case firstKey.closeObject.refl =>
      simpa [tokens] using h.supply (.object (List.forall_mem_nil _))
    case firstKey.string.refl =>
      simpa [membersBefore] using Reached.colon h (List.forall_mem_nil _)
  | key h hdone =>
    cases t <;> cases hstep
    case key.string.refl => simpa using Reached.colon h hdone
  | colon h hdone =>
    cases t <;> cases hstep
    case colon.colon.refl => simpa using Reached.value (Opened.member h hdone)
  | @member key value done _ _ h hvalue =>
    cases h with
    | member h hdone =>
      have hdone' : ∀ m ∈ (key, value) :: done, m.2.Proper :=
        List.forall_mem_cons.mpr ⟨hvalue, hdone⟩
      cases t <;> cases hstep
      case member.comma.refl =>
        simpa [membersBefore_cons] using Reached.key h hdone'
      case member.closeObject.refl =>
        have hclosed := h.supply (.object fun m h' => hdone' m (List.mem_reverse.mp h'))
        rw [tokens_object] at hclosed
        simpa using hclosed

/-- All tokens that were taken stand in front of the place that was reached. -/
theorem Reached.feed {progress progress' : Progress} {ts ts' : List Token}
    (h : Reached progress ts) (hts : ∀ t ∈ ts', t.Proper)
    (hfeed : Json.feed progress ts' = some progress') : Reached progress' (ts ++ ts') := by
  induction ts' generalizing progress ts with
  | nil =>
    cases progress <;> cases hfeed <;> simpa using h
  | cons t ts' ih =>
    cases progress with
    | complete j => cases hfeed
    | inside expect frames =>
      obtain ⟨ht, hts⟩ := List.forall_mem_cons.mp hts
      rw [Json.feed, Option.bind_eq_some_iff] at hfeed
      obtain ⟨progress'', hstep, hfeed⟩ := hfeed
      rw [← List.singleton_append, ← List.append_assoc]
      exact ih (h.step ht hstep) hts hfeed

/-! ### Texts -/

theorem SpellsTokens.proper {ts : List Token} {cs : List Char} (h : SpellsTokens ts cs) :
    ∀ t ∈ ts, t.Proper := by
  induction h with
  | nil => exact List.forall_mem_nil _
  | cons _ ht _ _ ih => exact List.forall_mem_cons.mpr ⟨ht.proper, ih⟩

/-- What is read to its end is made of tokens, and these complete the document. -/
theorem exists_spellsTokens_of_run {expect : Expect} {frames : List Frame} {cs : List Char}
    {j : Json} (h : run expect frames cs = { root := j, ended := true }) :
    ∃ ts, SpellsTokens ts cs ∧ feed (.inside expect frames) ts = some (.complete j) := by
  fun_induction run expect frames cs with
  | case1 expect frames cs t rest hnext expect' frames' hstep ih =>
    obtain ⟨ts, hts, hfeed⟩ := ih h
    refine ⟨t :: ts, .of_next hnext hts, ?_⟩
    rw [feed, hstep, Option.bind_some, hfeed]
  | case2 expect frames cs t rest hnext value hstep =>
    obtain ⟨rfl, hend⟩ := Document.mk.inj h
    refine ⟨[t], .of_next hnext (.of_atEnd hend), ?_⟩
    rw [feed, hstep, Option.bind_some, feed]
  | case3 => cases h
  | case4 => cases h

/-- **What is read to its end is a proper document, and the text spells it.** -/
theorem parse_eq_iff {cs : List Char} {j : Json} :
    parse cs = { root := j, ended := true } ↔ j.Proper ∧ j.Spells cs := by
  constructor
  · intro h
    obtain ⟨ts, hts, hfeed⟩ := exists_spellsTokens_of_run h
    have hreached := (Reached.value .nil).feed hts.proper hfeed
    cases hreached with
    | complete hj => exact ⟨hj, hts⟩
  · rintro ⟨hj, hcs⟩
    exact parse_of_spells hj hcs

/-- **A value is read from exactly the texts of the documents that it is read from.** -/
theorem read_eq_ok_iff {α : Type} {reader : Reader α} {cs : List Char} {x : α} :
    read reader cs = .ok x ↔ ∃ j, j.Proper ∧ j.Spells cs ∧ reader j = .ok x := by
  rw [read, Except.bind_eq_ok_iff]
  constructor
  · rintro ⟨y, hy, h⟩
    split at h
    · next hended =>
      obtain rfl := Except.pure_eq_ok_iff.mp h
      have hparse : parse cs = { root := (parse cs).root, ended := true } := by rw [← hended]
      obtain ⟨hj, hcs⟩ := parse_eq_iff.mp hparse
      exact ⟨_, hj, hcs, hy⟩
    · cases h
  · rintro ⟨j, hj, hcs, hx⟩
    rw [parse_of_spells hj hcs]
    exact ⟨x, hx, rfl⟩

end Daybook.Json
