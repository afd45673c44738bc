import AnnotationQuery.Proofs.Parse.Texts

/-!
# Operands are printed as they are read

An operand is printed in one form, whatever form it was read from: `x.label` as
`my('x').label`, `labels('x').length` as `list('x').length`, and every string in single quotes.
So what is printed is often not what was read. It is still text of the same operand.
Printing and reading again changes nothing but the quotes inside of strings, which are escaped
then, and a second time round not even these.

The printed text is the text of a derivation, `Operand.form`. That its tokens are those of
the derivation has to be seen at the places where two tokens meet without a blank. Mostly the second
starts with a character that makes no token longer. The dot is the exception: it would
make a number longer, but what stands before it is a name or a parenthesis.

Not every operand can be printed and read again. A string that ends in a lone backslash cannot, nor
can a name that is a keyword, or a member called `label`. None of these comes out of a parser.

Main results:

* `Operand.hasTokens_text`, `Operand.tree_form` — what is printed, and what it means.
* `OperandOver.legible` — what is read can be printed.
* `printed_operands_read_back` — printing and reading.
-/

namespace AnnotationQuery

open Grammar
open Parse (Tokens values)

/-! ## Tokens without blanks between them -/

/-- Whether no other symbol, being longer, starts with this one. -/
def Symbol.isLone : Symbol → Bool
  | lt | gt => false
  | _ => true

/-- Whether the symbol stands between tokens without being taken for a part of one. -/
def Symbol.isDivider : Symbol → Bool
  | lparen | rparen | comma => true
  | _ => false

namespace Token

variable {cs : List Char} {w : List Token}

theorem hasTokens_empty : HasTokens "".toList [] :=
  fun _ => ⟨[], rfl, rfl⟩

/-- A token in front of a text is the first of its tokens. -/
theorem HasTokens.cons {l : Lexeme} (h : lexeme? (l.written ++ cs) = some l)
    (hRest : HasTokens cs w) : HasTokens (l.written ++ cs) (l.token :: w) := by
  intro offset
  obtain ⟨ts, hTs, rfl⟩ := hRest (offset + Text.byteLength l.written)
  refine ⟨⟨l.token, offset, offset + Text.byteLength l.written⟩ :: ts, ?_, rfl⟩
  rw [lexFrom_lexeme h, hTs]
  rfl

/-- A symbol is a token whatever stands behind it, unless it starts a longer one. -/
theorem HasTokens.symbol {s : Symbol} (hLone : s.isLone = true) (hRest : HasTokens cs w) :
    HasTokens (s.text.toList ++ cs) (symbol s :: w) := by
  let l : Lexeme := ⟨.symbol s, s.text.toList⟩
  have hLexeme : lexeme? (l.written ++ cs) = some l := by
    cases s with
    | lt | gt => cases hLone
    | _ => rfl
  exact hRest.cons hLexeme

/-- A name goes up to the first character that cannot be a part of it. -/
theorem lexeme?_name {name : String} (hName : (ident name).Readable)
    (hStop : ∀ c ∈ cs.head?, Text.isIdentifierPart c = false) :
    lexeme? (name.toList ++ cs) = some ⟨ident name, name.toList⟩ := by
  have hAlone := hName name rfl
  generalize name.toList = word at hAlone ⊢
  cases word with
  | nil => cases hAlone
  | cons c word =>
    rw [List.cons_append]
    simp only [lexeme?] at hAlone ⊢
    split at hAlone
    · next hStart =>
      -- alone, the name is all of the text, so each of its characters can be part of a name
      have hAll : word.takeWhile Text.isIdentifierPart = word :=
        (List.cons.inj (congrArg Lexeme.written (Option.some.inj hAlone))).2
      have hFront : (word ++ cs).takeWhile Text.isIdentifierPart = word :=
        Text.takeWhile_run (List.takeWhile_eq_self_iff.mp hAll) hStop
      rw [if_pos hStart, hFront, ← hAlone, hAll]
    · -- the other branches of the lexer make no names
      split at hAlone
      · simp at hAlone
      · split at hAlone
        · simp at hAlone
        · split at hAlone <;> simp at hAlone

/-- A name is a token of its own if no name goes on behind it. -/
theorem HasTokens.name {name : String} (hName : (ident name).Readable)
    (hStop : ∀ c ∈ cs.head?, Text.isIdentifierPart c = false) (hRest : HasTokens cs w) :
    HasTokens (name.toList ++ cs) (ident name :: w) := by
  let l : Lexeme := ⟨ident name, name.toList⟩
  have hLexeme : lexeme? (l.written ++ cs) = some l := lexeme?_name hName hStop
  exact hRest.cons hLexeme

/-- A parenthesis or a comma ends whatever token stands before it. -/
theorem HasTokens.before {as : List Char} {v : List Token} {s : Symbol}
    (hDivider : s.isDivider = true) (hFront : HasTokens as v) (hRest : HasTokens cs w) :
    HasTokens (as ++ (s.text.toList ++ cs)) (v ++ .symbol s :: w) := by
  -- a divider is written with one character that nothing joins
  have hLone : s.isLone = true := by
    cases s with
    | lt | gt => cases hDivider
    | _ => rfl
  refine hFront.append (hRest.symbol hLone) ?_
  cases s with
  | lparen | rparen | comma =>
    rintro c ⟨⟩
    decide
  | _ => cases hDivider

end Token

/-! ## What is printed -/

/-- The operand as it is read again: its string, or the name of its layer, is escaped. -/
def Operand.escaped : Operand → Operand
  | layer function layerId => layer function ⟨Text.escape layerId.value, layerId.span⟩
  | literal (.string value) => literal (.string (Text.escape value))
  | o => o

/-- The comparand as it is read again. -/
def Comparand.escaped : Comparand → Comparand
  | one operand => one operand.escaped
  | list items => list (items.map fun o => ⟨o.value.escaped, o.span⟩)

/-- The comparand with all its places forgotten. -/
def Comparand.unplaced (c : Comparand) : Comparand :=
  c.moved fun _ => Span.nowhere

namespace Operand

/-- The form in which the operand is printed. -/
def form : Operand → OperandForm
  | id => .bare "id"
  | label => .bare "label"
  | ordinal => .bare "ordinal"
  | layer .label layerId => .my (.single (Text.escape layerId.value)) .label
  | layer .id layerId => .my (.single (Text.escape layerId.value)) .id
  | layer .count layerId => .list (.single (Text.escape layerId.value))
  | layer .labels layerId => .labels (.single (Text.escape layerId.value)) false
  | layer .annotators layerId => .annotators (.single (Text.escape layerId.value))
  | literal (.string value) => .string (.single (Text.escape value))
  | literal (.number written) => .number written
  | identifier name => .bare name
  | member object part => .member object.value part.value

/-- The operand can be told from its printed form: its strings can be quoted, its names and numbers
can be read, and no name has a meaning of its own. -/
def Legible : Operand → Prop
  | id | label | ordinal => True
  | layer _ layerId => Text.isQuotable layerId.value = true
  | literal (.string value) => Text.isQuotable value = true
  | literal (.number written) => (Token.number written).Readable
  | identifier name => (Token.ident name).Readable ∧ name ∉ ["id", "label", "ordinal"]
  | member object part =>
    (Token.ident object.value).Readable ∧ (Token.ident part.value).Readable ∧
      part.value ∉ ["label", "id"]

theorem legible_moved {o : Operand} {f : Span → Span} : (o.moved f).Legible ↔ o.Legible := by
  cases o <;> rfl

end Operand

/-- `name('layer')`, with something behind. -/
theorem hasTokens_call {name : String} (hName : (Token.ident name).Readable) {layerId : String}
    (hLayer : Text.isQuotable layerId = true) {tail : String} {w : List Token}
    (hTail : Token.HasTokens tail.toList w) :
    Token.HasTokens (name ++ ("(" ++ Text.quote layerId ++ ")") ++ tail).toList
      (OperandForm.call name (.single (Text.escape layerId)) ++ w) := by
  have hFront := Token.hasTokens_of_whole (hName name rfl)
  have hQuoted := Token.hasTokens_of_whole (Token.lexeme?_quote layerId hLayer)
  have hArgument := hQuoted.before (s := .rparen) rfl hTail
  simp only [String.toList_append, List.append_assoc]
  exact hFront.before (s := .lparen) rfl hArgument

/-- A name that is one lexeme can be read. -/
theorem readable_name {name : String}
    (h : Token.lexeme? name.toList = some ⟨.ident name, name.toList⟩) :
    (Token.ident name).Readable := by
  rintro word rfl
  exact h

/-- `.name`. -/
theorem hasTokens_dotted {text name : String} (hText : text = "." ++ name)
    (hName : (Token.ident name).Readable) :
    Token.HasTokens text.toList (OperandForm.dotted name) := by
  rw [hText, String.toList_append]
  exact (Token.hasTokens_of_whole (hName name rfl)).symbol (s := .dot) rfl

/-- A function of a layer is printed with the tokens of its form. -/
theorem LayerFunction.hasTokens_apply (function : LayerFunction) {layerId : Spanned String}
    (h : Text.isQuotable layerId.value = true) :
    Token.HasTokens (function.apply layerId.value).toList
      (Operand.layer function layerId).form.tokens := by
  have hMy : (Token.ident "my").Readable := readable_name (by decide)
  -- each function has its own name, and all but two of them a part behind a dot
  cases function with
  | label =>
    have hPart : Token.HasTokens ".label".toList (OperandForm.dotted "label") :=
      hasTokens_dotted (by decide) (readable_name (by decide))
    exact hasTokens_call hMy h hPart
  | id =>
    have hPart : Token.HasTokens ".id".toList (OperandForm.dotted "id") :=
      hasTokens_dotted (by decide) (readable_name (by decide))
    exact hasTokens_call hMy h hPart
  | count =>
    have hList : (Token.ident "list").Readable := readable_name (by decide)
    have hPart : Token.HasTokens ".length".toList (OperandForm.dotted "length") :=
      hasTokens_dotted (by decide) (readable_name (by decide))
    exact hasTokens_call hList h hPart
  | labels =>
    have hLabels : (Token.ident "labels").Readable := readable_name (by decide)
    have hCall := hasTokens_call hLabels h Token.hasTokens_empty
    rwa [String.append_empty] at hCall
  | annotators =>
    have hAnnotators : (Token.ident "annotators").Readable := readable_name (by decide)
    have hCall := hasTokens_call hAnnotators h Token.hasTokens_empty
    rwa [String.append_empty, List.append_nil] at hCall

namespace Operand

variable {o : Operand}

/-- The tokens of a printed operand are those of its form. -/
theorem hasTokens_text (h : o.Legible) : Token.HasTokens o.text.toList o.form.tokens := by
  cases o with
  | id | label | ordinal => exact Token.hasTokens_of_whole (by decide)
  | layer function layerId => exact function.hasTokens_apply h
  | literal value =>
    cases value with
    | string value => exact Token.hasTokens_of_whole (Token.lexeme?_quote value h)
    | number written => exact Token.hasTokens_of_whole (h written rfl)
  | identifier name => exact Token.hasTokens_of_whole (h.1 name rfl)
  | member object part =>
    obtain ⟨hObject, hPart, -⟩ := h
    have hDotted := hasTokens_dotted rfl hPart
    rw [text, String.append_assoc, String.toList_append]
    -- a dot could belong to a number before it, but not to a name
    refine hDotted.name hObject fun c hc => ?_
    rw [String.toList_append] at hc
    cases hc
    decide

/-- The form means the operand, escaped and without its places. -/
theorem tree_form (h : o.Legible) : o.form.tree = o.escaped.moved fun _ => Span.nowhere := by
  cases o with
  | id | label | ordinal => rfl
  | layer function layerId => cases function <;> rfl
  | literal value => cases value <;> rfl
  | identifier name =>
    -- the name is none of those that are tried first
    have hName := h.2
    simp only [List.mem_cons, List.not_mem_nil, or_false, not_or] at hName
    rw [form, Parse.tree_bare, Parse.named, if_neg hName.1, if_neg hName.2.1, if_neg hName.2.2]
    rfl
  | member object part =>
    have hPart := h.2.2
    simp only [List.mem_cons, List.not_mem_nil, or_false, not_or] at hPart
    rw [form, Parse.tree_member, Parse.memberOf, if_neg hPart.1, if_neg hPart.2]
    rfl

/-- An operand whose strings are escaped is printed as it was. -/
theorem text_escaped (o : Operand) : o.escaped.text = o.text := by
  cases o with
  | layer function layerId =>
    cases function <;> simp only [escaped, text, LayerFunction.apply, Text.quote_escape]
  | literal value =>
    cases value with
    | string value => exact Text.quote_escape value
    | number written => rfl
  | _ => rfl

theorem isSet_escaped (o : Operand) : o.escaped.isSet = o.isSet := by
  cases o with
  | literal value => cases value <;> rfl
  | _ => rfl

end Operand

theorem Grammar.StringToken.isQuotable_value {s : StringToken} (h : s.token.WellFormed) :
    Text.isQuotable s.value = true := by
  refine Token.isQuotable_of_stringValue? h ?_
  cases s <;> rfl

/-- What a form means can be printed, if the tokens of the form were read. -/
theorem Grammar.OperandForm.legible_tree (form : OperandForm)
    (h : ∀ t ∈ form.tokens, t.Readable ∧ t.WellFormed) : form.tree.Legible := by
  cases form with
  | my layer part => exact StringToken.isQuotable_value (h layer.token (by simp [tokens, call])).2
  | list layer => exact StringToken.isQuotable_value (h layer.token (by simp [tokens, call])).2
  | labels layer length =>
    have hLayer := StringToken.isQuotable_value (h layer.token (by simp [tokens, call])).2
    cases length <;> exact hLayer
  | annotators layer =>
    exact StringToken.isQuotable_value (h layer.token (by simp [tokens, call])).2
  | member object part =>
    have hObject := (h (.ident object) (by simp [tokens])).1
    have hPart := (h (.ident part) (by simp [tokens, dotted])).1
    rw [Parse.tree_member ⟨object, Span.nowhere⟩ ⟨part, Span.nowhere⟩, Operand.legible_moved]
    -- as the label or the id of a layer it is printed with the name in quotes
    unfold Parse.memberOf
    split
    · exact Token.isQuotable_of_ident hObject
    · split
      · exact Token.isQuotable_of_ident hObject
      · exact ⟨hObject, hPart, by simp_all⟩
  | bare name =>
    have hName := (h (.ident name) (by simp [tokens])).1
    rw [Parse.tree_bare, Operand.legible_moved]
    unfold Parse.named
    split
    · trivial
    · split
      · trivial
      · split
        · trivial
        · exact ⟨hName, by simp_all⟩
  | string s => exact StringToken.isQuotable_value (h s.token (by simp [tokens])).2
  | number written => exact (h (.number written) (by simp [tokens])).1

/-! ## Lists -/

namespace Comparand

/-- A comparand can be told from its printed form if its operands can, and a list has some. -/
def Legible : Comparand → Prop
  | one operand => operand.Legible
  | list items => items ≠ [] ∧ ∀ o ∈ items, o.value.Legible

/-- The comparand, and for a list also its items. -/
def parts : Comparand → List Comparand
  | one operand => [one operand]
  | list items => list items :: items.map fun o => one o.value

/-- The parts of a legible comparand are legible. -/
theorem Legible.part {c part : Comparand} (h : c.Legible) (hPart : part ∈ c.parts) :
    part.Legible := by
  cases c with
  | one o =>
    rw [List.mem_singleton.mp hPart]
    exact h
  | list items =>
    rcases List.mem_cons.mp hPart with rfl | hItem
    · exact h
    · obtain ⟨o, ho, rfl⟩ := List.mem_map.mp hItem
      exact h.2 o ho

/-- A comparand whose strings are escaped is printed as it was. -/
theorem text_escaped (c : Comparand) : c.escaped.text = c.text := by
  cases c with
  | one o => exact o.text_escaped
  | list items =>
    rw [escaped, text, text, List.map_map]
    simp only [Function.comp_def, Operand.text_escaped]

theorem isSet_escaped (c : Comparand) : c.escaped.isSet = c.isSet := by
  cases c with
  | one o => exact o.isSet_escaped
  | list items => rfl

theorem isSet_unplaced (c : Comparand) : c.unplaced.isSet = c.isSet := by
  cases c with
  | one o => cases o <;> rfl
  | list items => rfl

end Comparand

/-- The items of a printed list, and the parenthesis behind them. -/
theorem hasTokens_items {first : Spanned Operand} {more : List (Spanned Operand)}
    (h : ∀ o ∈ first :: more, o.value.Legible) :
    Token.HasTokens
      ((", ".intercalate ((first :: more).map fun o => o.value.text)).toList ++ ")".toList)
      (first.value.form.tokens ++ itemTokens (more.map fun o => o.value.form) ++
        [.symbol .rparen]) := by
  induction more generalizing first with
  | nil =>
    have hFirst := Operand.hasTokens_text (h first List.mem_cons_self)
    rw [List.map_singleton, String.intercalate_singleton, List.map_nil, itemTokens,
      List.flatMap_nil, List.append_nil]
    exact hFirst.before (s := .rparen) rfl Token.hasTokens_empty
  | cons second more ih =>
    rw [List.forall_mem_cons] at h
    have hFirst := Operand.hasTokens_text h.1
    -- the comma ends the item before it, and the blank behind it is skipped
    have hBlank : " ".toList.all Text.isBlank = true := by decide
    have hBoth := hFirst.before (s := .comma) rfl ((ih h.2).after_blanks hBlank)
    have hComma : ", ".toList = ",".toList ++ " ".toList := rfl
    have hItems : itemTokens ((second :: more).map fun o => o.value.form) = .symbol .comma ::
        (second.value.form.tokens ++ itemTokens (more.map fun o => o.value.form)) := rfl
    rw [List.map_cons, List.map_cons, String.intercalate_cons_cons, String.toList_append,
      String.toList_append, hComma, List.append_assoc, List.append_assoc, List.append_assoc,
      hItems, List.append_assoc]
    exact hBoth

/-- The tokens of a printed list. -/
theorem hasTokens_list {first : Spanned Operand} {more : List (Spanned Operand)}
    (h : ∀ o ∈ first :: more, o.value.Legible) :
    Token.HasTokens (Comparand.list (first :: more)).text.toList
      (Right.list first.value.form (more.map fun o => o.value.form)).tokens := by
  have hOpen := (hasTokens_items h).symbol (s := .lparen) rfl
  rw [Comparand.text, String.toList_append, String.toList_append, List.append_assoc]
  exact hOpen

/-! ## What is read -/

/-- The text alone is read as this comparand: an operand as the one key of an order list, ascending,
and a list on the right of a comparison, since it can stand nowhere else. -/
inductive ReadAs (text : String) : Comparand → Prop where
  | one {o : Spanned Operand} (h : Parse.order text = ⟨some [⟨o, false⟩], []⟩) :
      ReadAs text (.one o.value)
  | list {items : List (Spanned Operand)} {s s₁ s₂ s₃ : Span}
      (h : Parse.filter ("id IN " ++ text) =
        ⟨some (some (.compare s ⟨.id, s₁⟩ ⟨.isIn, s₂⟩ ⟨.list items, s₃⟩)), []⟩) :
      ReadAs text (.list items)

/-- A legible comparand is read from its printed form, escaped and places aside. -/
theorem Comparand.Legible.read {c : Comparand} (h : c.Legible) :
    ∃ c', ReadAs c.text c' ∧ c'.unplaced = c.escaped.unplaced := by
  cases c with
  | one o =>
    obtain ⟨ts, hLex, hTokens⟩ := Operand.hasTokens_text h 0
    have hDerives : Parse.OperandDerives o.escaped (values ts) :=
      ⟨o.form, hTokens.symm, Operand.tree_form h⟩
    obtain ⟨x, hRead, hSame⟩ := Parse.order_of_operand hLex hDerives
    exact ⟨.one x.value, .one hRead, congrArg Comparand.one hSame⟩
  | list items =>
    obtain ⟨hSome, hItems⟩ := h
    obtain ⟨first, more, rfl⟩ := List.exists_cons_of_ne_nil hSome
    obtain ⟨ts, hLex, hTokens⟩ := hasTokens_list hItems 0
    obtain ⟨read, s, s₁, s₂, s₃, hRead, hTrees⟩ := Parse.filter_of_list hLex hTokens.symm
    refine ⟨.list read, .list hRead, congrArg Comparand.list ?_⟩
    -- item by item, what is read is what the form means
    have hForms : first.value.form :: more.map (fun o => o.value.form) =
        (first :: more).map fun o => o.value.form := rfl
    rw [hTrees, hForms, List.map_map, List.map_map]
    refine List.map_congr_left fun o ho => ?_
    rw [Function.comp_apply, Operand.tree_form (hItems o ho)]
    rfl

/-! ## What can be read is legible -/

/-- Every token of the run was read from text. -/
def Parse.Genuine (run : Tokens) : Prop :=
  ∀ t ∈ run, t.value.Readable ∧ t.value.WellFormed

/-- The tokens of a text were read from text. -/
theorem Parse.genuine_of_lex {source : String} {ts : Tokens} (hLex : Token.lex source = .ok ts) :
    Genuine ts := by
  intro t ht
  exact ⟨Token.readable_of_lex hLex t.value (List.mem_map_of_mem ht),
    Token.wellFormed_of_lex hLex t ht⟩

theorem Parse.Genuine.subset {run ts : Tokens} (h : Genuine ts) (hRun : run ⊆ ts) : Genuine run :=
  fun t ht => h t (hRun ht)

/-- An operand that was read from text is legible. -/
theorem OperandOver.legible {o : Spanned Operand} {run : Tokens} (h : OperandOver o run)
    (hRun : Parse.Genuine run) : o.value.Legible := by
  obtain ⟨form, hTokens, hTree⟩ := h.derives
  have hForm : form.tree.Legible := by
    refine form.legible_tree fun t ht => ?_
    rw [hTokens] at ht
    obtain ⟨u, hu, rfl⟩ := List.mem_map.mp ht
    exact hRun u hu
  rwa [hTree, Operand.legible_moved] at hForm

/-- A right side that was read from text is legible. -/
theorem ComparandOver.legible {c : Spanned Comparand} {run : Tokens} (h : ComparandOver c run)
    (hRun : Parse.Genuine run) : c.value.Legible := by
  cases h with
  | one h => exact h.legible hRun
  | @list first items s s' run more hFirst hMore =>
    refine ⟨List.cons_ne_nil _ _, List.forall_mem_cons.mpr ⟨?_, fun o ho => ?_⟩⟩
    · exact hFirst.legible (hRun.subset fun t ht => by simp [ht])
    · obtain ⟨sub, hSub, hOver⟩ := hMore.item ho
      exact hOver.legible (hRun.subset fun t ht => by simp [hSub.subset ht])

/-- Every operand in the condition and every list, and the items of the lists. -/
def Expr.comparands : Expr → List Comparand
  | operand _ o => [.one o.value]
  | compare _ lhs _ rhs => .one lhs.value :: rhs.value.parts
  | not _ inner | group _ inner => inner.comparands
  | and _ lhs rhs | or _ lhs rhs => lhs.comparands ++ rhs.comparands
  | malformed _ => []

/-- All operands and lists of a condition that was read from text are legible. -/
theorem Expr.Over.legible {e : Expr} {run : Tokens} (h : e.Over run) (hRun : Parse.Genuine run)
    {c : Comparand} (hc : c ∈ e.comparands) : c.Legible := by
  -- the tokens of a part are among those of the whole
  induction h with
  | operand h =>
    rw [List.mem_singleton.mp hc]
    exact h.legible hRun
  | @compare lhs op rhs run run' run'' hLhs hOp hSpan hRhs =>
    rcases List.mem_cons.mp hc with rfl | hc
    · exact hLhs.legible (hRun.subset fun t ht => by simp [ht])
    · exact (hRhs.legible (hRun.subset fun t ht => by simp [ht])).part hc
  | not h ih => exact ih (hRun.subset fun t ht => by simp [ht]) hc
  | group h ih => exact ih (hRun.subset fun t ht => by simp [ht]) hc
  | and hLhs hRhs ihl ihr | or hLhs hRhs ihl ihr =>
    rcases List.mem_append.mp hc with hc | hc
    · exact ihl (hRun.subset fun t ht => by simp [ht]) hc
    · exact ihr (hRun.subset fun t ht => by simp [ht]) hc
  | malformed h => cases hc

/-- The comparand occurs in what the source is read as, be it a filter or an order list, with or
without complaints. -/
inductive Comparand.OccursIn (source : String) : Comparand → Prop where
  | filter {e : Expr} {c : Comparand} (h : (Parse.filter source).output = some (some e))
      (hc : c ∈ e.comparands) : OccursIn source c
  | order {terms : List OrderTerm} {t : OrderTerm} (h : (Parse.order source).output = some terms)
      (ht : t ∈ terms) : OccursIn source (.one t.operand.value)

/-- What occurs in a source is legible. -/
theorem Comparand.OccursIn.legible {source : String} {c : Comparand} (h : c.OccursIn source) :
    c.Legible := by
  cases h with
  | @filter e c h hc =>
    have hJoin : (Parse.filter source).output.join = some e := by rw [h]; rfl
    obtain ⟨run, rest, hLex, hOver⟩ := Parse.filter_over hJoin
    have hRun := (Parse.genuine_of_lex hLex).subset (List.subset_append_left run rest)
    exact hOver.legible hRun hc
  | @order terms t h ht =>
    have hMem : t ∈ (Parse.order source).output.getD [] := by rw [h]; exact ht
    obtain ⟨ts, sub, hLex, hSub, hOver⟩ := Parse.order_over hMem
    exact hOver.legible ((Parse.genuine_of_lex hLex).subset hSub.subset)

/-- **What is printed is read back.** Take an operand, a list or an item of a list that any source
is read as. Its printed form is read without complaints, and gives the same again, except that
its string, the name of its layer, or those of its items, are escaped. Printing what was read gives
the same text, and it gives many values if and only if the first did. -/
theorem printed_operands_read_back {source : String} {c : Comparand} (h : c.OccursIn source) :
    ∃ c', ReadAs c.text c' ∧ c'.unplaced = c.escaped.unplaced ∧ c'.text = c.text ∧
      c'.isSet = c.isSet := by
  obtain ⟨c', hRead, hSame⟩ := h.legible.read
  refine ⟨c', hRead, hSame, ?_, ?_⟩
  · -- neither places nor escaping change how it is written
    calc c'.text
      _ = c'.unplaced.text := (c'.text_moved _).symm
      _ = c.escaped.unplaced.text := by rw [hSame]
      _ = c.escaped.text := c.escaped.text_moved _
      _ = c.text := c.text_escaped
  · calc c'.isSet
      _ = c'.unplaced.isSet := c'.isSet_unplaced.symm
      _ = c.escaped.unplaced.isSet := by rw [hSame]
      _ = c.escaped.isSet := c.escaped.isSet_unplaced
      _ = c.isSet := c.isSet_escaped

/-- A list with an item of each kind, and something left over behind it. Two items are names of
functions that are not called. -/
def mixedSource : String :=
  "tag IN (labels(\"it's\").length, my.id, list, -2.5, \"\\\"'\", a.b) AND"

/-- The items of that list. -/
def mixedItems : List (Spanned Operand) :=
  [⟨.layer .count ⟨"it's", 15, 21⟩, 8, 29⟩, ⟨.layer .id ⟨"my", 31, 33⟩, 31, 36⟩,
    ⟨.identifier "list", 38, 42⟩, ⟨.literal (.number "-2.5"), 44, 48⟩,
    ⟨.literal (.string "\"'"), 50, 55⟩, ⟨.member ⟨"a", 57, 58⟩ ⟨"b", 59, 60⟩, 57, 60⟩]

theorem mixedSource_read_back :
    (Comparand.list mixedItems).OccursIn mixedSource ∧
      (Comparand.list mixedItems).text =
        "(list('it\\'s').length, my('my').id, list, -2.5, '\"\\'', a.b)" ∧
      ∃ c', ReadAs (Comparand.list mixedItems).text c' ∧
        c'.unplaced = (Comparand.list mixedItems).escaped.unplaced ∧
        c'.text = (Comparand.list mixedItems).text ∧ c'.isSet = true := by
  have hOutput : (Parse.filter mixedSource).output = some (some (.compare ⟨0, 61⟩
      ⟨.identifier "tag", 0, 3⟩ ⟨.isIn, 4, 6⟩ ⟨.list mixedItems, 7, 61⟩)) := by
    decide +kernel
  have hOccurs : (Comparand.list mixedItems).OccursIn mixedSource :=
    .filter hOutput (List.mem_cons_of_mem _ List.mem_cons_self)
  exact ⟨hOccurs, by decide +kernel, printed_operands_read_back hOccurs⟩

end AnnotationQuery
