import Mathlib
import Daybook.Proofs.Json.Lexing

/-!
# Reading documents

Reading a document is a machine that takes a token at a time (`feed`).  At a place where a value is
expected, the tokens of a document take it to the place behind that value (`feed_tokens`), so a text
that spells a document is read as that document and nothing is left over (`parse_of_spells`).
-/

namespace Daybook.Json

/-- Takes tokens one after the other. -/
def feed : Progress → List Token → Option Progress
  | progress, [] => some progress
  | .inside expect frames, t :: ts => (step expect frames t).bind fun progress => feed progress ts
  | .complete _, _ :: _ => none

theorem feed_append (progress : Progress) (ts ts' : List Token) :
    feed progress (ts ++ ts') = (feed progress ts).bind fun progress' => feed progress' ts' := by
  induction ts generalizing progress with
  | nil => cases progress <;> rfl
  | cons t ts ih =>
    cases progress with
    | complete value => rfl
    | inside expect frames =>
      rw [List.cons_append, feed, feed, Option.bind_assoc]
      exact Option.bind_congr fun progress' _ => ih progress'

/-- A document begins with a token that ends no list. -/
theorem Proper.exists_cons {j : Json} (h : j.Proper) :
    ∃ t ts, j.tokens = t :: ts ∧ t ≠ .closeArray := by
  cases h with
  | array =>
    rename_i items _
    cases items <;> exact ⟨_, _, by rw [tokens], by simp⟩
  | object =>
    rename_i members _
    cases members <;> exact ⟨_, _, by rw [tokens], by simp⟩
  | _ => exact ⟨_, _, by rw [tokens], by simp⟩

/-- The first item of a list is no different from a value, since it does not end the list. -/
theorem feed_firstItem {j : Json} (h : j.Proper) (frames : List Frame) :
    feed (.inside .firstItem (.items [] :: frames)) j.tokens =
      feed (.inside .value (.items [] :: frames)) j.tokens := by
  obtain ⟨t, ts, htokens, ht⟩ := h.exists_cons
  have hstep : step .firstItem (.items [] :: frames) t = step .value (.items [] :: frames) t := by
    cases t <;> first | rfl | exact absurd rfl ht
  rw [htokens, feed, feed, hstep]

/-- Further items are put behind those that were read. -/
theorem feed_moreItems {items : List Json}
    (h : ∀ item ∈ items, ∀ frames, feed (.inside .value frames) item.tokens =
      some (supply item frames))
    (done : List Json) (frames : List Frame) :
    feed (.inside .separator (.items done :: frames)) (moreItems items) =
      some (.inside .separator (.items (items.reverse ++ done) :: frames)) := by
  induction items generalizing done with
  | nil => rfl
  | cons item items ih =>
    have hitem := h item (by simp) (.items done :: frames)
    rw [moreItems, feed, step, Option.bind_some, feed_append, hitem, Option.bind_some, supply,
      ih (fun item' hitem' => h item' (by simp [hitem'])), List.reverse_cons, List.append_assoc,
      List.singleton_append]

/-- Further members are put behind those that were read. -/
theorem feed_moreMembers {members : List (Option String × Json)}
    (h : ∀ m ∈ members, ∀ frames, feed (.inside .value frames) m.2.tokens =
      some (supply m.2 frames))
    (done : List (Option String × Json)) (frames : List Frame) :
    feed (.inside .separator (.members done :: frames)) (moreMembers members) =
      some (.inside .separator (.members (members.reverse ++ done) :: frames)) := by
  induction members generalizing done with
  | nil => rfl
  | cons m members ih =>
    obtain ⟨key, value⟩ := m
    have hvalue := h (key, value) (by simp) (.member key done :: frames)
    rw [moreMembers, feed, step, Option.bind_some, feed, step, Option.bind_some, feed, step,
      Option.bind_some, feed_append, hvalue, Option.bind_some, supply,
      ih (fun m' hm' => h m' (by simp [hm'])), List.reverse_cons, List.append_assoc,
      List.singleton_append]

/-- **The tokens of a document are taken as its value**, wherever one is expected. -/
theorem feed_tokens {j : Json} (h : j.Proper) (frames : List Frame) :
    feed (.inside .value frames) j.tokens = some (supply j frames) := by
  induction h generalizing frames with
  | array hitems ih =>
    rename_i items
    cases items with
    | nil => rw [tokens]; rfl
    | cons item items =>
      obtain ⟨hitem, hrest⟩ := List.forall_mem_cons.mp ih
      have hitem := hitem (.items [] :: frames)
      rw [← feed_firstItem (hitems item (by simp))] at hitem
      rw [tokens, feed, step, beginValue, Option.bind_some, feed_append, hitem, Option.bind_some,
        supply, feed_append, feed_moreItems hrest, Option.bind_some, if_pos rfl, feed, step,
        List.reverse_append, List.reverse_reverse, List.reverse_singleton, List.singleton_append]
      rfl
  | object hmembers ih =>
    rename_i members
    cases members with
    | nil => rw [tokens]; rfl
    | cons m members =>
      obtain ⟨key, value⟩ := m
      obtain ⟨hvalue, hrest⟩ := List.forall_mem_cons.mp ih
      have hvalue := hvalue (.member key [] :: frames)
      rw [tokens, feed, step, beginValue, Option.bind_some, feed, step, Option.bind_some, feed,
        step, Option.bind_some, feed_append, hvalue, Option.bind_some, supply, feed_append,
        feed_moreMembers hrest, Option.bind_some, if_pos rfl, feed, step, List.reverse_append,
        List.reverse_reverse, List.reverse_singleton, List.singleton_append]
      rfl
  | _ => rw [tokens]; rfl

/-- A text of tokens that complete a document is read to its end. -/
theorem run_of_spellsTokens {ts : List Token} {cs : List Char} {expect : Expect}
    {frames : List Frame} {j : Json} (h : SpellsTokens ts cs)
    (hfeed : feed (.inside expect frames) ts = some (.complete j)) :
    run expect frames cs = { root := j, ended := true } := by
  induction ts generalizing cs expect frames with
  | nil => simp [feed] at hfeed
  | cons t ts ih =>
    obtain ⟨rest, hnext, hrest⟩ := h.next_eq
    rw [feed, Option.bind_eq_some_iff] at hfeed
    obtain ⟨progress, hstep, hfeed⟩ := hfeed
    rw [run]
    split
    · next t' rest' hnext' =>
      obtain ⟨rfl, rfl⟩ := Next.token.inj (hnext.symm.trans hnext')
      cases progress with
      | inside expect' frames' => simp only [hstep, ih hrest hfeed]
      | complete value =>
        cases ts with
        | nil =>
          simp only [feed, Option.some.injEq, Progress.complete.injEq] at hfeed
          simp only [hstep, hfeed, hrest.atEnd]
        | cons t' ts => simp [feed] at hfeed
    · next hnone => exact absurd hnext (hnone t rest)

/-- **A text that spells a document is read as that document**, and all of it is. -/
theorem parse_of_spells {j : Json} {cs : List Char} (hj : j.Proper) (h : j.Spells cs) :
    parse cs = { root := j, ended := true } :=
  run_of_spellsTokens h (feed_tokens hj [])

end Daybook.Json
