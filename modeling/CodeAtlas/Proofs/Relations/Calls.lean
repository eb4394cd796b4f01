import CodeAtlas.Proofs.Relations.Inference
import CodeAtlas.Proofs.Text.Runs

/-! Which names a text calls. A name is called where it stands as a maximal run of word characters
before an opening parenthesis, blanks in between passed over. The scan for calls misses none of
these places and finds no others. -/
namespace CodeAtlas.Relations

open CodeAtlas.Source (ClassElement Elements FunctionElement)
open CodeAtlas.Text

variable {text before run : List Char} {name : String} {place : Nat} {closed : Bool}

/-- At this place of a text the name is called. -/
def CalledAt (text : List Char) (place : Nat) (name : String) : Prop :=
  ∃ before blanks after, text = before ++ (name.toList ++ (blanks ++ '(' :: after)) ∧
    before.length = place ∧ IsRun isWord before name.toList (blanks ++ '(' :: after) ∧
    ∀ c ∈ blanks, isBlank c = true

/-! The places of calls. -/

def endsInWord (before : List Char) : Bool := before.getLast?.any isWord

def opens (after : List Char) : Bool := (after.dropWhile isBlank).head? == some '('

def calledHere? (before text : List Char) : Option String :=
  if !endsInWord before && !(text.takeWhile isWord).isEmpty && opens (text.dropWhile isWord) then
    some (String.ofList (text.takeWhile isWord))
  else none

def callSites (before : List Char) : List Char → List (Nat × String)
  | [] => []
  | c :: rest =>
    ((calledHere? before (c :: rest)).map (before.length, ·)).toList
      ++ callSites (before ++ [c]) rest

theorem opens_iff {after : List Char} : opens after = true ↔
    ∃ blanks rest, after = blanks ++ '(' :: rest ∧ ∀ c ∈ blanks, isBlank c = true := by
  rw [opens, beq_iff_eq]
  constructor
  · intro opened
    obtain ⟨rest, parenthesis⟩ := List.head?_eq_some_iff.mp opened
    refine ⟨after.takeWhile isBlank, rest, ?_, fun c mem => List.mem_takeWhile_imp mem⟩
    rw [← parenthesis, List.takeWhile_append_dropWhile]
  · rintro ⟨blanks, rest, rfl, all⟩
    rw [dropWhile_run all fun c first => by obtain rfl := Option.some.inj first; decide]
    rfl

theorem called_here_iff :
    calledHere? before text = some name ↔ CalledAt (before ++ text) before.length name := by
  have left (free : endsInWord before = false) (c : Char) (last : before.getLast? = some c) :
      isWord c = false := by
    rwa [endsInWord, last] at free
  constructor
  · intro here
    unfold calledHere? at here
    split at here
    case isFalse => cases here
    case isTrue called =>
      obtain rfl := Option.some.inj here
      simp only [Bool.and_eq_true, Bool.not_eq_true', List.isEmpty_eq_false_iff] at called
      obtain ⟨⟨free, nonempty⟩, opened⟩ := called
      obtain ⟨blanks, after, rest, all⟩ := opens_iff.mp opened
      refine ⟨before, blanks, after, ?_, rfl, ?_, all⟩
      · rw [String.toList_ofList, ← rest, List.takeWhile_append_dropWhile]
      · rw [String.toList_ofList, ← rest]
        constructor
        · exact nonempty
        · exact fun c mem => List.mem_takeWhile_imp mem
        · exact left free
        · exact fun c first => head_dropWhile first
  · rintro ⟨other, blanks, after, whole, same, stands, all⟩
    obtain ⟨rfl, rfl⟩ := List.append_inj whole same.symm
    have free : endsInWord before = false := by
      cases last : before.getLast? with
      | none => rw [endsInWord, last]; rfl
      | some c => rw [endsInWord, last]; exact stands.left c last
    have opened : opens (blanks ++ '(' :: after) = true := opens_iff.mpr ⟨_, _, rfl, all⟩
    have nonempty : name.toList.isEmpty = false := List.isEmpty_eq_false_iff.mpr stands.nonempty
    rw [calledHere?, takeWhile_run stands.inside stands.right,
      dropWhile_run stands.inside stands.right, free, opened, nonempty, String.ofList_toList]
    rfl

theorem mem_call_sites : (place, name) ∈ callSites before text ↔
    before.length ≤ place ∧ CalledAt (before ++ text) place name := by
  induction text generalizing before with
  | nil =>
    rw [callSites, iff_false_left List.not_mem_nil]
    rintro ⟨beyond, other, blanks, after, whole, rfl, -, -⟩
    have := congrArg List.length whole
    simp only [List.append_nil, List.length_append, List.length_cons] at this
    omega
  | cons c rest ih =>
    have here : (place, name) ∈
        ((calledHere? before (c :: rest)).map (before.length, ·)).toList ↔
          before.length = place ∧ CalledAt (before ++ c :: rest) before.length name := by
      rw [← called_here_iff, Option.mem_toList, Option.map_eq_some_iff]
      simp only [Prod.mk.injEq]
      constructor
      · rintro ⟨_, called, rfl, rfl⟩
        exact ⟨rfl, called⟩
      · rintro ⟨rfl, called⟩
        exact ⟨_, called, rfl, rfl⟩
    rw [callSites, List.mem_append, here, ih, List.length_append, List.append_assoc]
    constructor
    · rintro (⟨rfl, called⟩ | ⟨beyond, called⟩)
      · exact ⟨le_rfl, called⟩
      · exact ⟨by simp only [List.length_singleton] at beyond; omega, called⟩
    · rintro ⟨beyond, called⟩
      by_cases first : before.length = place
      · subst first
        exact .inl ⟨rfl, called⟩
      · exact .inr ⟨by simp only [List.length_singleton]; omega, called⟩

theorem call_sites_increase (before text : List Char) :
    (callSites before text).Pairwise fun a b => a.1 < b.1 := by
  induction text generalizing before with
  | nil => exact List.Pairwise.nil
  | cons c rest ih =>
    rw [callSites, List.pairwise_append]
    refine ⟨?_, ih _, ?_⟩
    · cases calledHere? before (c :: rest) with
      | none => exact List.Pairwise.nil
      | some name => exact List.pairwise_singleton _ _
    · rintro a first ⟨place, name⟩ later
      obtain ⟨name', -, rfl⟩ := Option.map_eq_some_iff.mp (Option.mem_toList.mp first)
      have beyond := (mem_call_sites.mp later).1
      rw [List.length_append, List.length_singleton] at beyond
      dsimp only
      omega

/-! The scan. -/

/-- The call that a word read so far comes to: `run` holds it reversed, and the flag says that
blanks have followed it. -/
def pendingCall (run : List Char) : Bool → List Char → List String
  | false, text =>
    if !run.isEmpty && opens (text.dropWhile isWord) then
      [String.ofList (run.reverse ++ text.takeWhile isWord)]
    else []
  | true, text => if !run.isEmpty && opens text then [String.ofList run.reverse] else []

variable {c : Char} {rest : List Char}

theorem pending_empty (closed : Bool) (text : List Char) : pendingCall [] closed text = [] := by
  cases closed <;> rfl

theorem pending_word (word : isWord c = true) (begun : run ≠ []) :
    pendingCall run false (c :: rest) = pendingCall (c :: run) false rest := by
  simp [pendingCall, word, begun]

theorem opens_none (plain : isBlank c = false) (other : c ≠ '(') : opens (c :: rest) = false := by
  simp [opens, plain, other]

theorem opens_blank (blank : isBlank c = true) : opens (c :: rest) = opens rest := by
  rw [opens, List.dropWhile_cons_of_pos blank, opens]

theorem pending_closed (word : isWord c = true) : pendingCall run true (c :: rest) = [] := by
  have plain : isBlank c = false := by
    by_contra blank
    rw [Bool.not_eq_false] at blank
    exact Bool.noConfusion (word.symm.trans (word_of_blank blank))
  have other : c ≠ '(' := by
    rintro rfl
    revert word
    decide
  rw [pendingCall, opens_none plain other, Bool.and_false]
  rfl

theorem pending_ended (ended : isWord c = false) :
    pendingCall run closed (c :: rest) = pendingCall run true (c :: rest) := by
  cases closed with
  | true => rfl
  | false => simp [pendingCall, ended]

theorem pending_blank (blank : isBlank c = true) :
    pendingCall run closed (c :: rest) = pendingCall run true rest := by
  rw [pending_ended (word_of_blank blank), pendingCall, opens_blank blank, pendingCall]

theorem called_here_word (free : endsInWord before = false) (word : isWord c = true) :
    (calledHere? before (c :: rest)).toList = pendingCall [c] false rest := by
  simp only [calledHere?, free, word, List.takeWhile_cons_of_pos, List.dropWhile_cons_of_pos,
    pendingCall]
  split <;> simp_all

theorem called_here_none (inside : endsInWord before = true ∨ isWord c = false) :
    calledHere? before (c :: rest) = none := by
  unfold calledHere?
  rcases inside with inside | inside
  · rw [inside]
    rfl
  · simp [inside]

theorem ends_in_word (before : List Char) (c : Char) : endsInWord (before ++ [c]) = isWord c := by
  simp [endsInWord]

/-- The scan lists the call that the word read so far comes to, and then those that begin in the
text. The induction is on the text; what has been read is in a word exactly while the run goes
on. -/
theorem called_words_after (state : endsInWord before = (!run.isEmpty && !closed))
    (text : List Char) : calledWordsAfter run closed text =
      pendingCall run closed text ++ (callSites before text).map Prod.snd := by
  induction text generalizing before run closed with
  | nil => cases closed <;> simp [calledWordsAfter, pendingCall, callSites, opens]
  | cons c rest ih =>
    have last := ends_in_word before c
    have sites : (callSites before (c :: rest)).map Prod.snd =
        (calledHere? before (c :: rest)).toList
          ++ (callSites (before ++ [c]) rest).map Prod.snd := by
      rw [callSites, List.map_append]
      cases calledHere? before (c :: rest) <;> rfl
    rw [calledWordsAfter, sites]
    by_cases word : isWord c = true
    · rw [if_pos word, ih (by rw [last, word]; cases closed <;> rfl)]
      cases closed with
      | true =>
        rw [if_pos rfl, pending_closed word, called_here_word (by simpa using state) word]
        rfl
      | false =>
        rw [if_neg Bool.false_ne_true]
        by_cases begun : run = []
        · subst begun
          rw [pending_empty, called_here_word (by simpa using state) word]
          rfl
        · have inside : endsInWord before = true := by
            rw [state, List.isEmpty_eq_false_iff.mpr begun]
            rfl
          rw [called_here_none (.inl inside), pending_word word begun]
          rfl
    · rw [Bool.not_eq_true] at word
      rw [if_neg (by rw [word]; exact Bool.false_ne_true), called_here_none (.inr word)]
      by_cases blank : isBlank c = true
      · rw [if_pos blank, ih (by rw [last, word]; cases run.isEmpty <;> rfl), pending_blank blank]
        rfl
      · rw [Bool.not_eq_true] at blank
        have outside : endsInWord (before ++ [c]) = (!([] : List Char).isEmpty && !false) := by
          rw [last, word]
          rfl
        have next := ih outside
        rw [pending_empty, List.nil_append] at next
        rw [if_neg (by rw [blank]; exact Bool.false_ne_true), next, pending_ended word, pendingCall]
        by_cases parenthesis : c = '('
        · subst parenthesis
          have opened : opens ('(' :: rest) = true := rfl
          cases run <;> simp [opened]
        · simp [opens_none blank parenthesis, parenthesis]

theorem called_words_eq (text : List Char) :
    calledWords text = (callSites [] text).map Prod.snd := by
  have outside : endsInWord [] = (!([] : List Char).isEmpty && !false) := rfl
  rw [calledWords, called_words_after outside, pending_empty]
  rfl

/-! The calls of a body. -/

theorem mem_called_words : name ∈ calledWords text ↔ ∃ place, CalledAt text place name := by
  rw [called_words_eq, List.mem_map]
  constructor
  · rintro ⟨⟨place, name⟩, mem, rfl⟩
    exact ⟨place, (mem_call_sites.mp mem).2⟩
  · rintro ⟨place, called⟩
    exact ⟨(place, name), mem_call_sites.mpr ⟨Nat.zero_le _, called⟩, rfl⟩

variable {body : String} {stoplist : List String}

theorem mem_find_calls : name ∈ findCalls body stoplist ↔
    name ∉ stoplist ∧ ∃ place, CalledAt body.toList place name := by
  rw [findCalls, mem_distinct, List.mem_filter, mem_called_words, and_comm]
  simp

theorem find_calls_in_order (body : String) (stoplist : List String) :
    InOrder (· < ·) (CalledAt body.toList) (findCalls body stoplist) := by
  have order := distinct_in_order (call_sites_increase [] body.toList)
  rw [findCalls, ← distinct_filter, called_words_eq]
  refine InOrder.congr (fun name _ place => ?_) (order.sublist List.filter_sublist)
  rw [mem_call_sites]
  exact and_iff_right (Nat.zero_le _)

/-! The calls of elements. -/

def CallFrom (function : FunctionElement) (place : Nat) (relationship : Relationship) : Prop :=
  ∃ name, name ∉ callStoplist ∧ CalledAt function.body.toList place name ∧
    relationship = ⟨.calls, .function, function.name, .function, name⟩

def CallAmong (functions : List FunctionElement) (place : Nat × Nat)
    (relationship : Relationship) : Prop :=
  ∃ function, functions[place.1]? = some function ∧ CallFrom function place.2 relationship

def Relationship.isCall (relationship : Relationship) : Bool := relationship.type = .calls

def callsOf (function : FunctionElement) : List Relationship :=
  (findCalls function.body).map (⟨.calls, .function, function.name, .function, ·⟩)

variable {function : FunctionElement} {functions : List FunctionElement}
  {relationship : Relationship}

theorem mem_calls_of : relationship ∈ callsOf function ↔
    ∃ place, CallFrom function place relationship := by
  rw [callsOf, List.mem_map]
  constructor
  · rintro ⟨name, mem, rfl⟩
    obtain ⟨allowed, place, called⟩ := mem_find_calls.mp mem
    exact ⟨place, name, allowed, called, rfl⟩
  · rintro ⟨place, name, allowed, called, rfl⟩
    exact ⟨name, mem_find_calls.mpr ⟨allowed, place, called⟩, rfl⟩

theorem calls_of_in_order (function : FunctionElement) :
    InOrder (· < ·) (CallFrom function) (callsOf function) := by
  rw [InOrder, callsOf, List.pairwise_map]
  refine List.Pairwise.imp_of_mem ?_ (find_calls_in_order function.body callStoplist)
  rintro earlier later mem - ⟨place, called, rest⟩
  refine ⟨place, ⟨earlier, (mem_find_calls.mp mem).1, called, rfl⟩, ?_⟩
  rintro other ⟨name, -, called, same⟩
  obtain rfl : later = name := congrArg Relationship.targetName same
  exact rest other called

theorem nodup_calls_of (function : FunctionElement) : (callsOf function).Nodup := by
  refine (nodup_distinct _).map fun a b same => ?_
  exact congrArg Relationship.targetName same

theorem call_among_cons {k i : Nat} : CallAmong (function :: functions) (k, i) relationship ↔
    (k = 0 ∧ CallFrom function i relationship) ∨
      ∃ j, k = j + 1 ∧ CallAmong functions (j, i) relationship := by
  cases k with
  | zero => simp [CallAmong]
  | succ k => simp [CallAmong]

theorem mem_calls_among : relationship ∈ functions.flatMap callsOf ↔
    ∃ place, CallAmong functions place relationship := by
  rw [List.mem_flatMap]
  constructor
  · rintro ⟨function, mem, call⟩
    obtain ⟨k, at_k⟩ := List.mem_iff_getElem?.mp mem
    obtain ⟨i, call⟩ := mem_calls_of.mp call
    exact ⟨(k, i), function, at_k, call⟩
  · rintro ⟨⟨k, i⟩, function, at_k, call⟩
    exact ⟨function, List.mem_iff_getElem?.mpr ⟨k, at_k⟩, mem_calls_of.mpr ⟨i, call⟩⟩

/-- Calls stand in the order of the functions, and those of a function in the order of its body. The
induction is on the functions: what the first one calls has a place before all others. -/
theorem calls_among_in_order (functions : List FunctionElement) :
    InOrder (Prod.Lex (· < ·) (· < ·)) (CallAmong functions)
      (distinct (functions.flatMap callsOf)) := by
  induction functions with
  | nil => exact List.Pairwise.nil
  | cons function functions ih =>
    have later {r : Relationship} {k i : Nat} (new : r ∉ callsOf function)
        (there : CallAmong (function :: functions) (k, i) r) :
        ∃ j, k = j + 1 ∧ CallAmong functions (j, i) r := by
      refine (call_among_cons.mp there).resolve_left fun ⟨_, call⟩ => new ?_
      exact mem_calls_of.mpr ⟨i, call⟩
    rw [List.flatMap_cons, distinct_append, distinct_of_nodup (nodup_calls_of function), InOrder,
      List.pairwise_append]
    refine ⟨?_, ?_, ?_⟩
    · refine List.Pairwise.imp ?_ (calls_of_in_order function)
      rintro a b ⟨i, call, rest⟩
      refine ⟨(0, i), call_among_cons.mpr (.inl ⟨rfl, call⟩), ?_⟩
      rintro ⟨k, j⟩ there
      rcases call_among_cons.mp there with ⟨rfl, call⟩ | ⟨k, rfl, -⟩
      · exact Prod.Lex.right _ (rest j call)
      · exact Prod.Lex.left _ _ (Nat.succ_pos k)
    · refine List.Pairwise.imp_of_mem ?_ (ih.sublist List.filter_sublist)
      rintro a b - mem ⟨⟨k, i⟩, call, rest⟩
      have new : b ∉ callsOf function := by simpa using (List.mem_filter.mp mem).2
      refine ⟨(k + 1, i), call_among_cons.mpr (.inr ⟨k, rfl, call⟩), ?_⟩
      rintro ⟨m, j⟩ there
      obtain ⟨m, rfl, call⟩ := later new there
      rcases Prod.lex_iff.mp (rest _ call) with before | ⟨same, before⟩
      · exact Prod.Lex.left _ _ (Nat.succ_lt_succ before)
      · obtain rfl : k = m := same
        exact Prod.Lex.right _ before
    · intro a first b mem
      have new : b ∉ callsOf function := by simpa using (List.mem_filter.mp mem).2
      obtain ⟨i, call⟩ := mem_calls_of.mp first
      refine ⟨(0, i), call_among_cons.mpr (.inl ⟨rfl, call⟩), ?_⟩
      rintro ⟨k, j⟩ there
      obtain ⟨k, rfl, -⟩ := later new there
      exact Prod.Lex.left _ _ (Nat.succ_pos k)

/-! What is inferred. -/

theorem calls_of_function (function : FunctionElement) :
    (ofFunction function).filter Relationship.isCall = callsOf function := by
  have calls : (callsOf function).filter Relationship.isCall = callsOf function := by
    rw [List.filter_eq_self]
    intro relationship mem
    obtain ⟨name, -, rfl⟩ := List.mem_map.mp mem
    rfl
  have others : ((instantiations function.body.toList).map fun name : String =>
      (⟨.instantiates, .function, function.name, .classDef, name⟩ : Relationship)).filter
        Relationship.isCall = [] := by
    rw [List.filter_eq_nil_iff]
    intro relationship mem
    obtain ⟨name, -, rfl⟩ := List.mem_map.mp mem
    exact Bool.false_ne_true
  rw [ofFunction, List.filter_append, others, List.append_nil]
  exact calls

theorem no_calls_of_class (classDef : ClassElement) :
    (ofClass classDef).filter Relationship.isCall = [] := by
  rw [List.filter_eq_nil_iff]
  intro relationship mem
  rcases List.mem_append.mp mem with mem | mem
  · obtain ⟨name, -, rfl⟩ := List.mem_map.mp mem
    exact Bool.false_ne_true
  · obtain ⟨name, -, rfl⟩ := List.mem_map.mp mem
    exact Bool.false_ne_true

theorem inferred_calls (elements : Elements) : (infer elements).filter Relationship.isCall =
    distinct (elements.functions.flatMap callsOf) := by
  have functions : elements.functions.flatMap (fun function =>
      (ofFunction function).filter Relationship.isCall) = elements.functions.flatMap callsOf := by
    simp only [calls_of_function]
  have classes : elements.classes.flatMap (fun classDef =>
      (ofClass classDef).filter Relationship.isCall) = [] := by
    simp only [no_calls_of_class, List.flatMap_eq_nil_iff, implies_true]
  rw [infer, distinct_filter, List.filter_append, List.filter_flatMap, List.filter_flatMap,
    functions, classes, List.append_nil]

theorem mem_infer_append {elements others : Elements} : relationship ∈ infer (elements ++ others) ↔
    relationship ∈ infer elements ∨ relationship ∈ infer others := by
  have functions : (elements ++ others).functions = elements.functions ++ others.functions := rfl
  have classes : (elements ++ others).classes = elements.classes ++ others.classes := rfl
  simp only [infer, mem_distinct, functions, classes, List.flatMap_append, List.mem_append]
  tauto

/-- Calls are read off texts as they stand there: each name is listed once and in the order of the
first places at which it is called, and no other names are. What is inferred from elements holds
nothing twice; its calls are those of the functions, by function and then by place; and elements
together lead to nothing else than each of them alone. -/
theorem calls_read_off :
    (∀ (body : String) (stoplist : List String),
      (findCalls body stoplist).Nodup ∧
      (∀ name, name ∈ findCalls body stoplist ↔
        name ∉ stoplist ∧ ∃ place, CalledAt body.toList place name) ∧
      InOrder (· < ·) (CalledAt body.toList) (findCalls body stoplist)) ∧
    (∀ elements : Elements,
      (infer elements).Nodup ∧
      (∀ relationship, relationship ∈ infer elements ∧ relationship.type = .calls ↔
        ∃ place, CallAmong elements.functions place relationship) ∧
      InOrder (Prod.Lex (· < ·) (· < ·)) (CallAmong elements.functions)
        ((infer elements).filter (·.type = .calls))) ∧
    ∀ (elements others : Elements) (relationship : Relationship),
      relationship ∈ infer (elements ++ others) ↔
        relationship ∈ infer elements ∨ relationship ∈ infer others := by
  refine ⟨fun body stoplist => ?_, fun elements => ?_, fun elements others relationship => ?_⟩
  · exact ⟨nodup_distinct _, fun name => mem_find_calls, find_calls_in_order body stoplist⟩
  · refine ⟨nodup_distinct _, fun relationship => ?_, ?_⟩
    · rw [← mem_calls_among, ← @mem_distinct _ _ _ (elements.functions.flatMap callsOf),
        ← inferred_calls, List.mem_filter, Relationship.isCall, decide_eq_true_eq]
    · exact inferred_calls elements ▸ calls_among_in_order elements.functions
  · exact mem_infer_append

/-- A name is called where blanks of any kind come before the parenthesis, and where a call stands
inside another one; what a longer word ends in is not called. -/
example : findCalls "outer (inner\t(a), if (b) 1été() outer( ))" = ["outer", "inner", "1été"] := by
  decide +kernel

end CodeAtlas.Relations
