import AnnotationQuery.Proofs.Compile.Pointing
import AnnotationQuery.Proofs.Text.Escape
import AnnotationQuery.Proofs.Token.Spelling

/-!
# The texts in a tree

Three kinds of tokens bring text into a tree. A string in single quotes is taken as it was
written, and a name too. A string in double quotes is read by replacing every `\"` by `"`,
wherever it stands. In general this is not the way to read escapes: in `\\"` the second
backslash belongs to the first, and the quote to neither. But such text is no body of a
string. In a body a quote is always escaped, so the backslash before it is its own, and the
replacement does what a reading that takes characters in pairs does.

A text that gets into a tree can be quoted again, whatever it was read from: the backslashes
at the end of a body pair up, since the closing quote was not escaped. A text from single quotes
is even escaped already.

Nothing is assumed of the source, so this is about trees with malformed parts too.

Main results:

* `Token.unescapeDouble_eq_readPairs` — strings in double quotes.
* `Expr.Over.texts`, `mem_tokenTexts_of_mem_filterTexts` — texts in trees and texts of tokens.
* `parsed_texts_quotable` — all texts that are read from a source.
-/

namespace AnnotationQuery

open Parse (Tokens tokenText? tokenTexts)

/-! ## Texts of tokens -/

/-- Takes each backslash together with the character behind it, and drops it if that is a double
quote. -/
def Text.readPairs : List Char → List Char
  | '\\' :: c :: cs => if c = '"' then c :: readPairs cs else '\\' :: c :: readPairs cs
  | c :: cs => c :: readPairs cs
  | [] => []

/-- A character that is no backslash stands for itself. -/
theorem Text.readPairs_cons_of_ne {c : Char} (h : c ≠ '\\') (cs : List Char) :
    readPairs (c :: cs) = c :: readPairs cs := by
  rw [readPairs]
  rintro d ds hc -
  exact h hc

namespace Token

/-- What a token says: a string in single quotes its body, a string in double quotes its body read
in pairs, a name itself. -/
inductive Says : Token → String → Prop where
  | single (body : String) : Says (.single body) body
  | double (body : String) : Says (.double body) (String.ofList (Text.readPairs body.toList))
  | ident (name : String) : Says (.ident name) name

/-- In the body of a string, dropping the backslash before each double quote is reading it in pairs.
-/
theorem unescapeDouble_eq_readPairs {body : List Char} (h : isBody '"' body = true) :
    Parse.unescapeDouble body = Text.readPairs body := by
  -- a body ends with no open pair, so the cases are those of pairs
  induction body using isBody.induct with
  | case1 => rfl
  | case2 => cases h
  | case3 c cs ih =>
    rw [isBody] at h
    by_cases hc : c = '"'
    · subst hc
      rw [Parse.unescapeDouble, Text.readPairs, if_pos rfl, ih h]
    · rw [unescapeDouble_pair_of_isBody hc h, Text.readPairs, if_neg hc, ih h]
  | case4 c cs hNot hNotPair ih =>
    have hSlash : c ≠ '\\' := ne_backslash_of_unpaired hNot hNotPair
    rw [isBody_cons_of_ne hSlash, Bool.and_eq_true] at h
    rw [unescapeDouble_cons_of_isBody h.2, Text.readPairs_cons_of_ne hSlash, ih h.2]

/-- In the body of a string in single quotes there is nothing left to escape. -/
theorem escapeAfter_of_isBody {body : List Char} (h : isBody '\'' body = true) :
    Text.escapeAfter false body = body := by
  -- as a body is made up: every quote in it has its own backslash already
  induction body using isBody.induct with
  | case1 => rfl
  | case2 => cases h
  | case3 c cs ih =>
    rw [isBody] at h
    rw [Text.escapeAfter_false_backslash, Text.escapeAfter_true_cons, ih h]
  | case4 c cs hNot hNotPair ih =>
    have hSlash : c ≠ '\\' := ne_backslash_of_unpaired hNot hNotPair
    rw [isBody_cons_of_ne hSlash, Bool.and_eq_true, bne_iff_ne] at h
    rw [Text.escapeAfter_false_cons hSlash h.1, ih h.2]

/-- A name that can be read can be quoted: no backslash stands in it. -/
theorem isQuotable_of_ident {name : String} (h : (Token.ident name).Readable) :
    Text.isQuotable name = true := by
  rw [Text.isQuotable_iff_endsEscaped]
  refine Text.endsEscaped_of_notMem fun hMem => ?_
  rcases word_or_text (h name rfl) with ⟨-, hWord⟩ | ⟨-, hOther, -⟩
  · -- a backslash is no identifier character
    exact absurd (hWord _ hMem) (by decide)
  · exact hOther name rfl

/-- The body of a string in single quotes is escaped already. -/
theorem escape_of_single {source : String} {ts : Tokens} (hLex : lex source = .ok ts)
    {t : Spanned Token} (ht : t ∈ ts) {body : String} (hBody : t.value = .single body) :
    Text.escape body = body := by
  have hWf := wellFormed_of_lex hLex t ht
  rw [hBody] at hWf
  rw [Text.escape, escapeAfter_of_isBody hWf, String.ofList_toList]

/-- The text that a token brings into a tree is what the token says, and can be quoted again. -/
theorem says_of_tokenText? {source : String} {ts : Tokens} (hLex : lex source = .ok ts)
    {t : Spanned Token} (ht : t ∈ ts) {v : String} (h : tokenText? t.value = some v) :
    t.value.Says v ∧ Text.isQuotable v = true := by
  have hWf := wellFormed_of_lex hLex t ht
  have hReadable := readable_of_lex hLex t.value (List.mem_map_of_mem ht)
  generalize t.value = u at h hWf hReadable
  cases u with
  | single body =>
    cases h
    exact ⟨.single _, isQuotable_of_stringValue? hWf rfl⟩
  | double body =>
    have hQuotable := isQuotable_of_stringValue? hWf h
    cases h
    -- between double quotes, a backslash and a quote stand for the quote
    rw [unescapeDouble_eq_readPairs hWf] at hQuotable ⊢
    exact ⟨.double body, hQuotable⟩
  | ident name =>
    cases h
    exact ⟨.ident _, isQuotable_of_ident hReadable⟩
  | keyword | number | symbol => cases h

end Token

/-! ## Texts of trees -/

/-- The texts on the right side of a comparison, at their places. -/
def comparandTexts (c : Spanned Comparand) : List (Spanned String) :=
  match c.value with
  | .one o => operandTexts ⟨o, c.span⟩
  | .list items => items.flatMap operandTexts

/-- The texts in a condition, at their places. -/
def Expr.texts : Expr → List (Spanned String)
  | operand _ o => operandTexts o
  | compare _ lhs _ rhs => operandTexts lhs ++ comparandTexts rhs
  | not _ inner | group _ inner => inner.texts
  | and _ lhs rhs | or _ lhs rhs => lhs.texts ++ rhs.texts
  | malformed _ => []

/-- The texts of the items of a list are texts of its tokens, in their order. -/
theorem ItemsOver.texts {items : List (Spanned Operand)} {run : Tokens}
    (h : ItemsOver items run) : (items.flatMap operandTexts).Sublist (tokenTexts run) := by
  induction h with
  | nil => exact List.nil_sublist _
  | @cons o os s run more hItem hMore ih =>
    rw [List.flatMap_cons, ← List.singleton_append, Parse.tokenTexts_append,
      Parse.tokenTexts_append]
    exact (hItem.texts.append ih).trans (List.sublist_append_right _ _)

/-- The texts of a right side are texts of its tokens, in their order. -/
theorem ComparandOver.texts {c : Spanned Comparand} {run : Tokens} (h : ComparandOver c run) :
    (comparandTexts c).Sublist (tokenTexts run) := by
  cases h with
  | one h => exact h.texts
  | @list first items s s' run more hFirst hMore =>
    have hItems : ((first :: items).flatMap operandTexts).Sublist (tokenTexts (run ++ more)) := by
      rw [List.flatMap_cons, Parse.tokenTexts_append]
      exact hFirst.texts.append hMore.texts
    exact Parse.texts_between hItems [⟨.symbol .lparen, s⟩] [⟨.symbol .rparen, s'⟩]

/-- The texts in a condition are texts of the tokens that it was read from, in their order. -/
theorem Expr.Over.texts {e : Expr} {run : Tokens} (h : e.Over run) :
    e.texts.Sublist (tokenTexts run) := by
  -- the texts come in the order of the tokens, and parentheses and keywords show none
  induction h with
  | operand h => exact h.texts
  | @compare lhs op rhs run run' run'' hLhs hOp hSpan hRhs =>
    have hRight := hRhs.texts.trans (List.sublist_append_right (tokenTexts run') _)
    rw [Parse.tokenTexts_append, Parse.tokenTexts_append]
    exact hLhs.texts.append hRight
  | @not inner s run h ih =>
    have hBehind := Parse.texts_between ih [⟨.keyword .not, s⟩] []
    rwa [List.append_nil] at hBehind
  | @group inner s s' run h ih =>
    exact Parse.texts_between ih [⟨.symbol .lparen, s⟩] [⟨.symbol .rparen, s'⟩]
  | @and lhs rhs s run run' hLhs hRhs ihl ihr | @or lhs rhs s run run' hLhs hRhs ihl ihr =>
    rw [Parse.tokenTexts_append, Parse.tokenTexts_cons]
    exact ihl.append (ihr.trans (List.sublist_append_right _ _))
  | malformed => exact List.nil_sublist _

namespace Parse

variable {source : String}

/-- The texts in the condition that a filter is read as. -/
def filterTexts (source : String) : List (Spanned String) :=
  ((filter source).output.join.map Expr.texts).getD []

/-- The texts in the sort keys that an order list is read as. -/
def orderTexts (source : String) : List (Spanned String) :=
  ((order source).output.getD []).flatMap fun t => operandTexts t.operand

/-- A text of the tokens is the text of one of them, at its place. -/
theorem mem_tokenTexts {ts : Tokens} {v : Spanned String} (h : v ∈ tokenTexts ts) :
    ∃ t ∈ ts, t.span = v.span ∧ tokenText? t.value = some v.value := by
  obtain ⟨t, ht, hText⟩ := List.mem_filterMap.mp h
  obtain ⟨w, hw, rfl⟩ := Option.map_eq_some_iff.mp hText
  exact ⟨t, ht, rfl, hw⟩

/-- A text of a filter is a text of its tokens. -/
theorem mem_tokenTexts_of_mem_filterTexts {v : Spanned String} (h : v ∈ filterTexts source) :
    ∃ ts, Token.lex source = .ok ts ∧ v ∈ tokenTexts ts := by
  unfold filterTexts at h
  cases hTree : (filter source).output.join with
  | none =>
    rw [hTree] at h
    cases h
  | some e =>
    rw [hTree] at h
    obtain ⟨run, rest, hLex, hOver⟩ := filter_over hTree
    refine ⟨run ++ rest, hLex, ?_⟩
    rw [tokenTexts_append]
    exact List.mem_append_left _ (hOver.texts.subset h)

/-- A text of an order list is a text of its tokens. -/
theorem mem_tokenTexts_of_mem_orderTexts {v : Spanned String} (h : v ∈ orderTexts source) :
    ∃ ts, Token.lex source = .ok ts ∧ v ∈ tokenTexts ts := by
  obtain ⟨t, ht, hv⟩ := List.mem_flatMap.mp h
  obtain ⟨ts, sub, hLex, hSub, hOver⟩ := order_over ht
  refine ⟨ts, hLex, ?_⟩
  exact (hSub.sublist.filterMap _).subset (hOver.texts.subset hv)

/-- **Texts are read right and can be quoted again.** In the tokens of any source, replacing every
escaped quote of a string in double quotes is reading its body in pairs. Every text in the condition
or in the sort keys that a source is read as, malformed or not, can be quoted, and is what a token
of the source says at the same place; if that token is a string in single quotes, escaping leaves
the text alone. -/
theorem parsed_texts_quotable (source : String) :
    (∀ ts, Token.lex source = .ok ts → ∀ t ∈ ts, ∀ body, t.value = .double body →
      unescapeDouble body.toList = Text.readPairs body.toList) ∧
    ∀ v, v ∈ filterTexts source ∨ v ∈ orderTexts source →
      Text.isQuotable v.value = true ∧
        ∃ ts t, Token.lex source = .ok ts ∧ t ∈ ts ∧ t.span = v.span ∧ t.value.Says v.value ∧
          ∀ body, t.value = .single body → Text.escape v.value = v.value := by
  constructor
  · intro ts hLex t ht body hBody
    have hWf := Token.wellFormed_of_lex hLex t ht
    rw [hBody] at hWf
    exact Token.unescapeDouble_eq_readPairs hWf
  · intro v hv
    -- every text stems from a token
    obtain ⟨ts, hLex, hText⟩ : ∃ ts, Token.lex source = .ok ts ∧ v ∈ tokenTexts ts :=
      hv.elim mem_tokenTexts_of_mem_filterTexts mem_tokenTexts_of_mem_orderTexts
    obtain ⟨t, ht, hSpan, hRead⟩ := mem_tokenTexts hText
    obtain ⟨hSays, hQuotable⟩ := Token.says_of_tokenText? hLex ht hRead
    refine ⟨hQuotable, ts, t, hLex, ht, hSpan, hSays, ?_⟩
    intro body hBody
    rw [hBody] at hSays
    cases hSays
    exact Token.escape_of_single hLex ht hBody

-- outside of strings the replacement joins a backslash with a quote that is not its own
example : unescapeDouble ['\\', '\\', '"'] ≠ Text.readPairs ['\\', '\\', '"'] := by decide

/-- A source with a text from each kind of token, and an end that is malformed. -/
def wordySource : String :=
  "my('it\\'s').label = \"a\\\\\\\"'\" AND part.id IN ('\\\\') OR ("

/-- The string in double quotes: an escaped backslash, an escaped quote and a single quote. -/
def wordyString : Spanned Token :=
  ⟨.double "a\\\\\\\"'", 20, 28⟩

theorem wordySource_quotable :
    (∃ ts, Token.lex wordySource = .ok ts ∧ wordyString ∈ ts) ∧
      unescapeDouble "a\\\\\\\"'".toList = Text.readPairs "a\\\\\\\"'".toList ∧
      (filterTexts wordySource).map Spanned.value = ["it\\'s", "a\\\\\"'", "part", "\\\\"] ∧
      ∀ v ∈ filterTexts wordySource, Text.isQuotable v.value = true := by
  obtain ⟨hTokens, hTexts⟩ : wordyString ∈ (Token.lex wordySource).toOption.getD [] ∧
      (filterTexts wordySource).map Spanned.value =
        ["it\\'s", "a\\\\\"'", "part", "\\\\"] := by
    decide +kernel
  obtain ⟨hDouble, hAll⟩ := parsed_texts_quotable wordySource
  cases hLex : Token.lex wordySource with
  | error d =>
    rw [hLex] at hTokens
    cases hTokens
  | ok ts =>
    rw [hLex] at hTokens
    exact ⟨⟨ts, rfl, hTokens⟩, hDouble ts hLex wordyString hTokens _ rfl, hTexts,
      fun v hv => (hAll v (.inl hv)).1⟩

end Parse

end AnnotationQuery
