import CodeSessions.Script.Token
import Mathlib.Data.List.Chain
import Mathlib.Data.List.TakeWhile

/-!
# Spelling — which characters spell which tokens

`Token.ofLine` cuts a line into the longest tokens it can find.  This file says what it means that a
line spells a list of tokens, without any search:

- `Lexeme w rest t`: the characters `w` are the token `t`, before the characters `rest`,
- `Spells line ts`: the line consists of lexemes of `ts` with blanks around them, and of a comment.

Only words and `=` look at what follows them.  So a line may spell several lists of tokens, `12` for
instance also a `1` and a `2`; `Token.ofLine` finds the one list in which no token could have merged
with the next (`ofLine_eq_of_spells`).
-/

namespace CodeSessions
namespace Script

open Text

/-! ## Lexemes -/

/-- The reserved words. -/
def reserved : List (String × Token) :=
  [("print", .print), ("and", .op .and), ("or", .op .or), ("not", .not),
    ("True", .literal (.bool true)), ("False", .literal (.bool false)), ("None", .literal .none)]

def symbols : List (String × Token) :=
  [("==", .op .equal), ("!=", .op .notEqual), ("<=", .op .lessEqual), (">=", .op .greaterEqual),
    ("<", .op .less), (">", .op .greater), ("+", .op .add), ("-", .op .subtract),
    ("*", .op .multiply), ("/", .op .divide), ("%", .op .modulo), ("(", .opening),
    (")", .closing), (",", .comma), (";", .semicolon)]

def isWord : List Char → Bool
  | [] => false
  | c :: cs => isNameStart c && cs.all isNamePart

/-- The text does not go on with a character of the class `p`. -/
def Apart (p : Char → Bool) (rest : List Char) : Prop :=
  ∀ c cs, rest = c :: cs → p c = false

inductive Lexeme : List Char → List Char → Token → Prop
  | word {w : String} {t : Token} {rest : List Char} (hword : (w, t) ∈ reserved)
      (hend : Apart isNamePart rest) : Lexeme w.toList rest t
  | name {w : String} {rest : List Char} (hword : isWord w.toList = true)
      (hfree : w ∉ reserved.map Prod.fst) (hend : Apart isNamePart rest) :
      Lexeme w.toList rest (.name w)
  | symbol {w : String} {t : Token} {rest : List Char} (hsymbol : (w, t) ∈ symbols) :
      Lexeme w.toList rest t
  | assign {rest : List Char} (hend : Apart (· == '=') rest) : Lexeme ['='] rest .assign
  | integer {digits rest : List Char} {n : Int64} (hne : digits ≠ [])
      (hdigits : ∀ d ∈ digits, d.isDigit = true) (hn : n.toInt = Token.digitsValue digits) :
      Lexeme digits rest (.literal (.int n))
  | fraction {whole decimals rest : List Char} (hwhole : whole ≠ []) (hdecimals : decimals ≠ [])
      (hdigits : ∀ d ∈ whole ++ decimals, d.isDigit = true) :
      Lexeme (whole ++ '.' :: decimals) rest
        (.literal (.float
          (Float.ofScientific (Token.digitsValue (whole ++ decimals)) true decimals.length)))
  | text {quote : Char} {body rest : List Char} (hquote : quote = '"' ∨ quote = '\'')
      (hbody : quote ∉ body) :
      Lexeme (quote :: (body ++ [quote])) rest (.literal (.text (String.ofList body)))

/-! ## Lines -/

def Blank (s : List Char) : Prop :=
  ∀ c ∈ s, isInlineBlank c = true

inductive Spells : List Char → List Token → Prop
  | blank {s : List Char} : Blank s → Spells s []
  | comment {s : List Char} (text : List Char) : Blank s → Spells (s ++ '#' :: text) []
  | token {s w rest : List Char} {t : Token} {ts : List Token} :
      Blank s → Lexeme w rest t → Spells rest ts → Spells (s ++ (w ++ rest)) (t :: ts)

/-! ## Characters -/

theorem Apart.nil (p : Char → Bool) : Apart p [] := by
  intro c cs h
  cases h

theorem Apart.cons {p : Char → Bool} {c : Char} (hc : p c = false) (cs : List Char) :
    Apart p (c :: cs) := by
  intro d ds h
  cases h
  exact hc

theorem Apart.dropWhile (p : Char → Bool) (s : List Char) : Apart p (s.dropWhile p) := by
  intro c cs h
  have hhead := List.head?_dropWhile_not p s
  simpa [h] using hhead

theorem Apart.takeWhile_append {p : Char → Bool} {rest : List Char} (hrest : Apart p rest)
    {cs : List Char} (hcs : ∀ c ∈ cs, p c = true) :
    (cs ++ rest).takeWhile p = cs ∧ (cs ++ rest).dropWhile p = rest := by
  have hnil : rest.takeWhile p = [] ∧ rest.dropWhile p = rest := by
    cases rest with
    | nil => exact ⟨rfl, rfl⟩
    | cons c rest => simp [hrest c rest rfl]
  simp [List.takeWhile_append_of_pos hcs, List.dropWhile_append_of_pos hcs, hnil.1, hnil.2]

theorem isLetter_of_isDigit {c : Char} (h : c.isDigit = true) : isLetter c = false := by
  have hbounds : 48 ≤ c.toNat ∧ c.toNat ≤ 57 := by
    simpa [Char.isDigit, UInt32.le_iff_toNat_le] using h
  have hascii : c.toNat < 0x80 := Nat.lt_of_le_of_lt hbounds.2 (by decide)
  -- the ten digits are looked through, since none of them is a letter for a reason of its own
  have hten : ∀ n : Fin 58, 48 ≤ n.val → (Char.ofNat n.val).isAlpha = false := by decide
  have halpha := hten ⟨c.toNat, Nat.lt_succ_of_le hbounds.2⟩ hbounds.1
  have hself : Char.ofNat c.toNat = c := Char.ofNat_toNat c
  simpa [isLetter, hascii, hself] using halpha

theorem isNameStart_of_isDigit {c : Char} (h : c.isDigit = true) : isNameStart c = false := by
  have hne : c ≠ '_' := by
    rintro rfl
    cases h
  simp [isNameStart, hne, isLetter_of_isDigit h]

/-! ## Steps of the scanner -/

theorem scan_blank {c : Char} (hc : isInlineBlank c = true) (done : List Token) (s : List Char) :
    Token.scan done (c :: s) = Token.scan done s := by
  simp only [Token.scan, hc, if_true]

theorem scan_comment (done : List Token) (s : List Char) :
    Token.scan done ('#' :: s) = done.reverse := by
  have hblank : isInlineBlank '#' = false := by decide
  simp [Token.scan, hblank]

theorem scan_token {c : Char} {s after : List Char} {t : Token} (hc : isInlineBlank c = false)
    (hhash : c ≠ '#') (hread : Token.read c s = some (t, after)) (done : List Token) :
    Token.scan done (c :: s) = Token.scan (t :: done) after := by
  simp only [Token.scan, hc, beq_eq_false_iff_ne.mpr hhash, Bool.false_eq_true, if_false]
  -- the scanner keeps what it has read, and goes on behind it
  split
  · rename_i h
    cases hread.symm.trans h
  · rename_i h
    cases hread.symm.trans h
    rfl

theorem scan_stray {c : Char} {s : List Char} (hc : isInlineBlank c = false) (hhash : c ≠ '#')
    (hread : Token.read c s = none) (done : List Token) :
    Token.scan done (c :: s) = (.stray :: done).reverse := by
  simp only [Token.scan, hc, beq_eq_false_iff_ne.mpr hhash, Bool.false_eq_true, if_false]
  split
  · rfl
  · rename_i h
    cases hread.symm.trans h

/-- Induction over a line as the scanner goes through it. -/
@[elab_as_elim]
theorem scan_induction {motive : List Char → Prop} (nil : motive [])
    (blank : ∀ c s, isInlineBlank c = true → motive s → motive (c :: s))
    (comment : ∀ s, motive ('#' :: s))
    (stray : ∀ c s, isInlineBlank c = false → c ≠ '#' → Token.read c s = none → motive (c :: s))
    (token : ∀ c s t after, isInlineBlank c = false → c ≠ '#' →
      Token.read c s = some (t, after) → motive after → motive (c :: s))
    (line : List Char) : motive line := by
  match line with
  | [] => exact nil
  | c :: s =>
      by_cases hc : isInlineBlank c = true
      · exact blank c s hc (scan_induction nil blank comment stray token s)
      · simp only [Bool.not_eq_true] at hc
        by_cases hhash : c = '#'
        · exact hhash ▸ comment s
        · cases hread : Token.read c s with
          | none => exact stray c s hc hhash hread
          | some found =>
              rcases found with ⟨t, after⟩
              -- a token takes up its first character at least
              have hlt : after.length < (c :: s).length :=
                Nat.lt_succ_of_le (Token.length_of_read hread)
              exact token c s t after hc hhash hread
                (scan_induction nil blank comment stray token after)
  termination_by line.length
  decreasing_by
    · exact Nat.lt_succ_self s.length
    · exact hlt

/-- The tokens already read stay in front. -/
theorem scan_eq (done : List Token) (line : List Char) :
    Token.scan done line = done.reverse ++ Token.ofLine line := by
  simp only [Token.ofLine]
  induction line using scan_induction generalizing done with
  | nil => simp [Token.scan]
  | blank c s hc ih => simpa only [scan_blank hc] using ih done
  | comment s => simp [scan_comment]
  | stray c s hc hhash hread => simp [scan_stray hc hhash hread]
  | token c s t after hc hhash hread ih =>
      calc
        Token.scan done (c :: s) = Token.scan (t :: done) after := scan_token hc hhash hread done
        _ = (t :: done).reverse ++ Token.scan [] after := ih (t :: done)
        _ = done.reverse ++ ([t].reverse ++ Token.scan [] after) := by simp
        _ = done.reverse ++ Token.scan [t] after := congrArg (done.reverse ++ ·) (ih [t]).symm
        _ = done.reverse ++ Token.scan [] (c :: s) :=
          congrArg (done.reverse ++ ·) (scan_token hc hhash hread []).symm

theorem ofLine_nil : Token.ofLine [] = [] := by
  simp [Token.ofLine, Token.scan]

theorem ofLine_blank {c : Char} (hc : isInlineBlank c = true) (s : List Char) :
    Token.ofLine (c :: s) = Token.ofLine s :=
  scan_blank hc [] s

theorem ofLine_token {c : Char} {s after : List Char} {t : Token} (hc : isInlineBlank c = false)
    (hhash : c ≠ '#') (hread : Token.read c s = some (t, after)) :
    Token.ofLine (c :: s) = t :: Token.ofLine after := by
  simp only [Token.ofLine, scan_token hc hhash hread]
  exact scan_eq [t] after

theorem ofLine_append {bs : List Char} (hbs : Blank bs) (s : List Char) :
    Token.ofLine (bs ++ s) = Token.ofLine s := by
  -- the blanks go one by one
  induction bs with
  | nil => rfl
  | cons c bs ih =>
      have hrest : Blank bs := fun d hd => hbs d (List.mem_cons_of_mem c hd)
      exact (ofLine_blank (hbs c List.mem_cons_self) (bs ++ s)).trans (ih hrest)

/-! ## What the scanner reads is a lexeme -/

theorem ofInteger?_eq_some_iff {digits : List Char} {t : Token} :
    Token.ofInteger? digits = some t ↔
      ∃ n : Int64, n.toInt = Token.digitsValue digits ∧ t = .literal (.int n) := by
  have hmax : Int64.maxValue.toInt = 2 ^ 63 - 1 := rfl
  simp only [Token.ofInteger?]
  constructor
  · intro h
    split at h
    · cases h
      refine ⟨Int64.ofNat (Token.digitsValue digits), Int64.toInt_ofNat_of_lt ?_, rfl⟩
      omega
    · cases h
  · rintro ⟨n, hn, rfl⟩
    -- an integer that is there is at most the largest one
    have hle := n.toInt_le
    have hfits : Token.digitsValue digits < 2 ^ 63 := by omega
    have hof : Int64.ofNat (Token.digitsValue digits) = n := by
      apply Int64.toInt.inj
      exact (Int64.toInt_ofNat_of_lt hfits).trans hn.symm
    have hsmall : (Token.digitsValue digits : Int) ≤ Int64.maxValue.toInt := by omega
    simp [hsmall, hof]

theorem ofWord_of_mem_reserved {w : String} {t : Token} (h : (w, t) ∈ reserved) :
    Token.ofWord w = t := by
  simp only [reserved, List.mem_cons, Prod.mk.injEq, List.not_mem_nil, or_false] at h
  rcases h with h | h | h | h | h | h | h <;> rcases h with ⟨rfl, rfl⟩ <;> rfl

theorem ofWord_of_not_mem_reserved {w : String} (h : w ∉ reserved.map Prod.fst) :
    Token.ofWord w = .name w := by
  simp only [Token.ofWord]
  split <;> first | rfl | exact absurd (by decide) h

theorem takeWhile_append_dropWhile_cons {p : Char → Bool} {s rest : List Char} {d : Char}
    (h : s.dropWhile p = d :: rest) : s = s.takeWhile p ++ d :: rest := by
  simp only [← h, List.takeWhile_append_dropWhile]

theorem readNumber_sound {c : Char} {s rest : List Char} {t : Token} (hc : c.isDigit = true)
    (h : Token.readNumber (c :: s) = some (t, rest)) :
    ∃ w, c :: s = w ++ rest ∧ Lexeme w rest t := by
  -- a fraction needs a point and a digit behind it; everything else is an integer
  have hwhole : (c :: s).takeWhile Char.isDigit ≠ [] := by simp [hc]
  have hdigits : ∀ s : List Char, ∀ d ∈ s.takeWhile Char.isDigit, d.isDigit = true :=
    fun s d hd => List.mem_takeWhile_imp hd
  have hinteger : ∀ {rest' : List Char}, (c :: s).dropWhile Char.isDigit = rest' →
      (Token.ofInteger? ((c :: s).takeWhile Char.isDigit)).map (fun t => (t, rest')) =
        some (t, rest) → ∃ w, c :: s = w ++ rest ∧ Lexeme w rest t := by
    intro rest' hrest' h
    rcases Option.map_eq_some_iff.1 h with ⟨t', ht', heq⟩
    cases heq
    rcases ofInteger?_eq_some_iff.1 ht' with ⟨n, hn, rfl⟩
    refine ⟨_, ?_, .integer hwhole (hdigits _) hn⟩
    simp only [← hrest', List.takeWhile_append_dropWhile]
  simp only [Token.readNumber] at h
  split at h
  · rename_i d tail heq
    -- a point makes a fraction only before a digit
    split at h
    · rename_i hd
      cases h
      have hsplit := takeWhile_append_dropWhile_cons heq
      refine ⟨(c :: s).takeWhile Char.isDigit ++ '.' :: (d :: tail).takeWhile Char.isDigit, ?_,
        .fraction hwhole (by simp [hd]) ?_⟩
      · simpa only [List.append_assoc, List.cons_append, List.takeWhile_append_dropWhile]
          using hsplit
      · intro e he
        exact (List.mem_append.1 he).elim (hdigits _ e) (hdigits _ e)
    · simp only [heq] at h
      exact hinteger heq h
  · exact hinteger rfl h

theorem readText_sound {quote : Char} {s rest : List Char} {t : Token}
    (hquote : quote = '"' ∨ quote = '\'') (h : Token.readText quote s = some (t, rest)) :
    ∃ w, quote :: s = w ++ rest ∧ Lexeme w rest t := by
  simp only [Token.readText] at h
  split at h
  · cases h
  · rename_i d tail heq
    cases h
    have hd : d = quote := by simpa using Apart.dropWhile (· != quote) s d rest heq
    have hsplit := takeWhile_append_dropWhile_cons heq
    refine ⟨quote :: (s.takeWhile (· != quote) ++ [quote]), ?_, .text hquote ?_⟩
    · simp only [← hd] at hsplit ⊢
      simpa using hsplit
    · intro hmem
      simpa using List.mem_takeWhile_imp hmem

/-- A symbol spells its token, and so does an equals sign that no other one follows. -/
theorem lexeme_of_ofSymbol? {w rest : List Char} {t : Token}
    (h : Token.ofSymbol? (String.ofList w) = some t) (hword : isWord w = false)
    (hend : w = ['='] → Apart (· == '=') rest) : Lexeme w rest t := by
  simp only [Token.ofSymbol?] at h
  split at h
  · rename_i op hop
    cases h
    have hw : w = op.symbol.toList := by simp [BinaryOp.ofSymbol?_eq_some_iff.1 hop]
    subst hw
    cases op with
    | and => cases hword
    | or => cases hword
    | _ => exact .symbol (by simp [BinaryOp.symbol, symbols])
  · have hchars : ∀ {v : String}, String.ofList w = v → w = v.toList := by
      rintro v rfl
      exact String.toList_ofList.symm
    split at h <;> cases h
    -- the marks in the order of `Token.ofSymbol?`, the equals sign first
    · rename_i hw
      cases hchars hw
      exact .assign (hend rfl)
    · rename_i hw
      exact hchars hw ▸ .symbol (by simp [symbols])
    · rename_i hw
      exact hchars hw ▸ .symbol (by simp [symbols])
    · rename_i hw
      exact hchars hw ▸ .symbol (by simp [symbols])
    · rename_i hw
      exact hchars hw ▸ .symbol (by simp [symbols])

theorem readSymbol_sound {c : Char} {s rest : List Char} {t : Token}
    (hstart : isNameStart c = false) (h : Token.readSymbol c s = some (t, rest)) :
    ∃ w, c :: s = w ++ rest ∧ Lexeme w rest t := by
  have hword : ∀ cs, isWord (c :: cs) = false := fun cs => by simp [isWord, hstart]
  simp only [Token.readSymbol] at h
  split at h
  · rename_i after
    rcases Option.or_eq_some_iff.1 h with hlonger | ⟨hnone, halone⟩
    · rcases Option.map_eq_some_iff.1 hlonger with ⟨t', ht', heq⟩
      cases heq
      refine ⟨[c, '='], rfl, lexeme_of_ofSymbol? ht' (hword _) ?_⟩
      intro hlone
      cases hlone
    · rcases Option.map_eq_some_iff.1 halone with ⟨t', ht', heq⟩
      cases heq
      refine ⟨[c], rfl, lexeme_of_ofSymbol? ht' (hword _) ?_⟩
      -- two equals signs are a symbol, and have been tried before
      intro hlone
      cases hlone
      cases hnone
  · rename_i hnext
    rcases Option.map_eq_some_iff.1 h with ⟨t', ht', heq⟩
    cases heq
    refine ⟨[c], rfl, lexeme_of_ofSymbol? ht' (hword _) fun _ => ?_⟩
    intro d ds hs
    refine beq_false_of_ne ?_
    rintro rfl
    exact hnext ds hs

theorem read_sound {c : Char} {s rest : List Char} {t : Token}
    (h : Token.read c s = some (t, rest)) : ∃ w, c :: s = w ++ rest ∧ Lexeme w rest t := by
  simp only [Token.read] at h
  split at h
  · exact readNumber_sound ‹_› h
  · split at h
    · rename_i hquote
      exact readText_sound (by simpa using hquote) h
    · split at h
      · rename_i hstart
        have hend := Apart.dropWhile isNamePart s
        have hword : isWord (c :: s.takeWhile isNamePart) = true := by simp [isWord, hstart]
        generalize hw : String.ofList (c :: s.takeWhile isNamePart) = w at h
        have hchars : c :: s.takeWhile isNamePart = w.toList := by
          simp only [← hw, String.toList_ofList]
        cases h
        refine ⟨w.toList, ?_, ?_⟩
        · simp only [← hchars, List.cons_append, List.takeWhile_append_dropWhile]
        · -- a word is a name unless it is reserved
          by_cases hfree : w ∈ reserved.map Prod.fst
          · rcases List.mem_map.1 hfree with ⟨⟨w, t⟩, hmem, rfl⟩
            simpa only [ofWord_of_mem_reserved hmem] using Lexeme.word hmem hend
          · simpa only [ofWord_of_not_mem_reserved hfree] using
              Lexeme.name (hchars ▸ hword) hfree hend
      · rename_i hstart
        exact readSymbol_sound (Bool.eq_false_iff.2 hstart) h

theorem Spells.cons_blank {c : Char} {s : List Char} {ts : List Token}
    (hc : isInlineBlank c = true) (h : Spells s ts) : Spells (c :: s) ts := by
  have hblank : ∀ {bs : List Char}, Blank bs → Blank (c :: bs) := by
    intro bs hbs d hd
    rcases List.mem_cons.1 hd with rfl | hd
    · exact hc
    · exact hbs d hd
  cases h with
  | blank hs => exact .blank (hblank hs)
  | comment text hs => exact .comment text (hblank hs)
  | token hs hlexeme hrest => exact .token (hblank hs) hlexeme hrest

theorem spells_ofLine (line : List Char) (h : .stray ∉ Token.ofLine line) :
    Spells line (Token.ofLine line) := by
  have hnil : Blank [] := by
    intro c hc
    cases hc
  induction line using scan_induction with
  | nil => simpa [ofLine_nil] using Spells.blank hnil
  | blank c s hc ih =>
      simp only [ofLine_blank hc] at h ⊢
      exact (ih h).cons_blank hc
  | comment s =>
      have hnone : Token.ofLine ('#' :: s) = [] := scan_comment [] s
      simpa only [hnone, List.nil_append] using Spells.comment s hnil
  | stray c s hc hhash hread =>
      simp [Token.ofLine, scan_stray hc hhash hread] at h
  | token c s t after hc hhash hread ih =>
      simp only [ofLine_token hc hhash hread] at h ⊢
      rcases read_sound hread with ⟨w, hw, hlexeme⟩
      have hrest := ih fun hmem => h (List.mem_cons_of_mem t hmem)
      simpa only [hw, List.nil_append] using Spells.token hnil hlexeme hrest

/-! ## A lexeme that stands apart is read -/

/-- Whether two tokens could be taken for one where no blank is between them. -/
def Token.merges : Token → Token → Bool
  | literal _, literal _ | op _, assign | op _, op .equal => true
  | _, _ => false

/-- The text does not go on with characters that the token could take up. -/
def Separate : Token → List Char → Prop
  | .literal _, rest => Apart Char.isDigit rest ∧ Apart (· == '.') rest
  | .op _, rest => Apart (· == '=') rest
  | _, _ => True

/-- What the first character of a lexeme tells. -/
structure Leads (c : Char) (t : Token) : Prop where
  not_blank : isInlineBlank c = false
  ne_hash : c ≠ '#'
  ne_point : c ≠ '.'
  digit : c.isDigit = true → ∃ v, t = .literal v
  equals : c = '=' → t = .assign ∨ t = .op .equal

theorem leads_of_isNameStart {c : Char} (hc : isNameStart c = true) (t : Token) : Leads c t := by
  have hne : ∀ d : Char, isNameStart d = false → c ≠ d := by
    rintro d hd rfl
    cases hc.symm.trans hd
  -- no name starts with any of the characters that are told apart here
  refine ⟨?_, hne '#' (by decide), hne '.' (by decide), fun hdigit => ?_, fun h => ?_⟩
  · simp [isInlineBlank, hne ' ' (by decide), hne '\t' (by decide)]
  · cases (isNameStart_of_isDigit hdigit).symm.trans hc
  · exact absurd h (hne '=' (by decide))

theorem leads_of_isDigit {c : Char} (hc : c.isDigit = true) (v : Value) : Leads c (.literal v) := by
  have hne : ∀ d : Char, d.isDigit = false → c ≠ d := by
    rintro d hd rfl
    cases hc.symm.trans hd
  refine ⟨?_, hne '#' (by decide), hne '.' (by decide), fun _ => ⟨v, rfl⟩, fun h => ?_⟩
  · simp [isInlineBlank, hne ' ' (by decide), hne '\t' (by decide)]
  · exact absurd h (hne '=' (by decide))

theorem exists_cons_of_isWord {w : List Char} (h : isWord w = true) :
    ∃ c cs, w = c :: cs ∧ isNameStart c = true ∧ ∀ d ∈ cs, isNamePart d = true := by
  cases w with
  | nil => cases h
  | cons c cs => simpa [isWord] using h

theorem isWord_of_mem_reserved : ∀ entry ∈ reserved, isWord entry.1.toList = true := by
  decide

theorem leads_of_mem_symbols : ∀ entry ∈ symbols, ∀ c cs, entry.1.toList = c :: cs →
    Leads c entry.2 := by
  have hheads : ∀ entry ∈ symbols, (entry.1.toList.head?.all fun c => !isInlineBlank c &&
      c != '#' && c != '.' && !c.isDigit && (c != '=' || entry.2 == .op .equal)) = true := by
    decide
  intro entry hentry c cs hcs
  have hhead : isInlineBlank c = false ∧ c ≠ '#' ∧ c ≠ '.' ∧ c.isDigit = false ∧
      (c = '=' → entry.2 = .op .equal) := by
    have hentry := hheads entry hentry
    simpa [hcs, and_assoc, imp_iff_not_or] using hentry
  rcases hhead with ⟨hblank, hhash, hpoint, hdigit, hequals⟩
  refine ⟨hblank, hhash, hpoint, fun h => ?_, fun h => .inr (hequals h)⟩
  cases hdigit.symm.trans h

theorem Lexeme.leads {w rest : List Char} {t : Token} (h : Lexeme w rest t) :
    ∃ c cs, w = c :: cs ∧ Leads c t := by
  cases h with
  | word hword =>
      rcases exists_cons_of_isWord (isWord_of_mem_reserved _ hword) with ⟨c, cs, hw, hc, _⟩
      exact ⟨c, cs, hw, leads_of_isNameStart hc t⟩
  | name hword =>
      rcases exists_cons_of_isWord hword with ⟨c, cs, hw, hc, _⟩
      exact ⟨c, cs, hw, leads_of_isNameStart hc _⟩
  | symbol hsymbol =>
      have hne : ∀ entry ∈ symbols, entry.1.toList ≠ [] := by decide
      rcases List.exists_cons_of_ne_nil (hne _ hsymbol) with ⟨c, cs, hw⟩
      exact ⟨c, cs, hw, leads_of_mem_symbols _ hsymbol c cs hw⟩
  | assign _ =>
      refine ⟨'=', [], rfl, by decide, by decide, by decide, fun h => ?_, fun _ => .inl rfl⟩
      exact absurd h (by decide)
  | integer hne hdigits _ =>
      rcases List.exists_cons_of_ne_nil hne with ⟨c, cs, rfl⟩
      exact ⟨c, cs, rfl, leads_of_isDigit (hdigits c List.mem_cons_self) _⟩
  | fraction hwhole _ hdigits =>
      rcases List.exists_cons_of_ne_nil hwhole with ⟨c, cs, rfl⟩
      exact ⟨c, _, rfl, leads_of_isDigit (hdigits c List.mem_cons_self) _⟩
  | text hquote _ =>
      refine ⟨_, _, rfl, ?_⟩
      rcases hquote with rfl | rfl <;>
        exact ⟨by decide, by decide, by decide, fun _ => ⟨_, rfl⟩, fun h => absurd h (by decide)⟩

theorem Spells.separate {rest : List Char} {t : Token} {ts : List Token} (h : Spells rest ts)
    (hfits : ∀ u ∈ ts.head?, t.merges u = false) : Separate t rest := by
  -- Wherever a lexeme does not follow at once, a blank, a comment or the end does.
  have hlead : ∀ {p : Char → Bool}, p ' ' = false → p '\t' = false → p '#' = false →
      (∀ c u us, ts = u :: us → Leads c u → p c = false) → Apart p rest := by
    intro p hspace htab hhash hu
    have hblank : ∀ {c : Char}, isInlineBlank c = true → p c = false := by
      intro c hc
      rcases (by simpa [isInlineBlank] using hc : c = ' ' ∨ c = '\t') with rfl | rfl
      · exact hspace
      · exact htab
    intro c cs hcs
    cases h with
    | blank hs => exact hblank (hs c (by simp [hcs]))
    | @comment s text hs =>
        cases s with
        | nil =>
            cases hcs
            exact hhash
        | cons d s =>
            cases hcs
            exact hblank (hs _ List.mem_cons_self)
    | @token s w after u us hs hlexeme _ =>
        cases s with
        | nil =>
            rcases hlexeme.leads with ⟨d, ds, rfl, hd⟩
            cases hcs
            exact hu _ u us rfl hd
        | cons d s =>
            cases hcs
            exact hblank (hs _ List.mem_cons_self)
  cases t with
  | literal v =>
      refine ⟨hlead (by decide) (by decide) (by decide) ?_,
        hlead (by decide) (by decide) (by decide) fun c u us _ hc => by simp [hc.ne_point]⟩
      -- a digit would lead another literal, and two literals merge
      intro c u us hts hc
      refine Bool.eq_false_iff.2 fun hdigit => ?_
      rcases hc.digit hdigit with ⟨v', rfl⟩
      cases hfits (.literal v') (by simp [hts])
  | op op =>
      refine hlead (by decide) (by decide) (by decide) ?_
      -- an equals sign would lead an assignment or `==`, and both merge with an operator
      intro c u us hts hc
      refine beq_false_of_ne fun hequals => ?_
      rcases hc.equals hequals with rfl | rfl
      · cases hfits .assign (by simp [hts])
      · cases hfits (.op .equal) (by simp [hts])
  | _ => trivial

theorem read_word {w : String} {rest : List Char} (hword : isWord w.toList = true)
    (hend : Apart isNamePart rest) {c : Char} {cs : List Char} (hw : w.toList = c :: cs) :
    Token.read c (cs ++ rest) = some (Token.ofWord w, rest) := by
  simp only [hw] at hword
  rcases exists_cons_of_isWord hword with ⟨_, _, heq, hstart, hparts⟩
  cases heq
  have hquote : ∀ d : Char, isNameStart d = false → c ≠ d := by
    rintro d hd rfl
    cases hstart.symm.trans hd
  have hdigit : c.isDigit = false := by
    refine Bool.eq_false_iff.mpr ?_
    intro hdigit
    cases (isNameStart_of_isDigit hdigit).symm.trans hstart
  have hrun := hend.takeWhile_append hparts
  have hdouble : c ≠ '"' := hquote '"' (by decide)
  have hsingle : c ≠ '\'' := hquote '\'' (by decide)
  simp [Token.read, hdigit, hdouble, hsingle, hstart, hrun.1, hrun.2, ← hw]

theorem read_eq_readSymbol {c : Char} (hdigit : c.isDigit = false) (hdouble : c ≠ '"')
    (hsingle : c ≠ '\'') (hstart : isNameStart c = false) (s : List Char) :
    Token.read c s = Token.readSymbol c s := by
  simp [Token.read, hdigit, hdouble, hsingle, hstart]

theorem readSymbol_longer {c : Char} {t : Token}
    (h : Token.ofSymbol? (String.ofList [c, '=']) = some t) (rest : List Char) :
    Token.readSymbol c ('=' :: rest) = some (t, rest) := by
  simp only [Token.readSymbol, h, Option.map_some, Option.some_or]

theorem readSymbol_alone {c : Char} {t : Token} {rest : List Char}
    (h : Token.ofSymbol? (String.singleton c) = some t)
    (hlonger : ∀ cs, rest = '=' :: cs → Token.ofSymbol? (String.ofList [c, '=']) = none) :
    Token.readSymbol c rest = some (t, rest) := by
  simp only [Token.readSymbol]
  split
  · rename_i cs
    simp only [hlonger cs rfl, h, Option.map_none, Option.map_some, Option.none_or]
  · simp only [h, Option.map_some]

theorem read_symbol {w : String} {t : Token} {rest : List Char} (hsymbol : (w, t) ∈ symbols)
    (hrest : Separate t rest) {c : Char} {cs : List Char} (hw : w.toList = c :: cs) :
    Token.read c (cs ++ rest) = some (t, rest) := by
  have hnext : ∀ cs, t = .op .less ∨ t = .op .greater → rest ≠ '=' :: cs := by
    rintro cs (rfl | rfl) rfl <;> cases hrest '=' cs rfl
  simp only [symbols, List.mem_cons, Prod.mk.injEq, List.not_mem_nil, or_false] at hsymbol
  rcases hsymbol with ⟨rfl, rfl⟩ | ⟨rfl, rfl⟩ | ⟨rfl, rfl⟩ | ⟨rfl, rfl⟩ | ⟨rfl, rfl⟩ | ⟨rfl, rfl⟩ |
    ⟨rfl, rfl⟩ | ⟨rfl, rfl⟩ | ⟨rfl, rfl⟩ | ⟨rfl, rfl⟩ | ⟨rfl, rfl⟩ | ⟨rfl, rfl⟩ | ⟨rfl, rfl⟩ |
    ⟨rfl, rfl⟩ | ⟨rfl, rfl⟩ <;>
  · simp at hw
    rcases hw with ⟨rfl, rfl⟩
    refine (read_eq_readSymbol (by decide) (by decide) (by decide) (by decide) _).trans ?_
    -- a symbol of two characters, or one that no equals sign makes longer, or `<` or `>`
    first
    | exact readSymbol_longer rfl rest
    | exact readSymbol_alone rfl fun _ _ => rfl
    | exact readSymbol_alone rfl fun cs hcs => absurd hcs (hnext cs (by decide))

theorem readNumber_integer {digits rest : List Char} {n : Int64}
    (hdigits : ∀ d ∈ digits, d.isDigit = true) (hn : n.toInt = Token.digitsValue digits)
    (hrest : Separate (.literal (.int n)) rest) :
    Token.readNumber (digits ++ rest) = some (.literal (.int n), rest) := by
  have hrun := hrest.1.takeWhile_append hdigits
  have hinteger := ofInteger?_eq_some_iff.2 ⟨n, hn, rfl⟩
  simp only [Token.readNumber, hrun.1, hrun.2]
  split
  · rename_i d tail
    cases hrest.2 '.' (d :: tail) rfl
  · simp only [hinteger, Option.map_some]

theorem readNumber_fraction {whole decimals rest : List Char} (hdecimals : decimals ≠ [])
    (hdigits : ∀ d ∈ whole ++ decimals, d.isDigit = true) (hrest : Apart Char.isDigit rest) :
    Token.readNumber (whole ++ '.' :: decimals ++ rest) =
      some (Token.ofFraction whole decimals, rest) := by
  rcases List.exists_cons_of_ne_nil hdecimals with ⟨d, ds, rfl⟩
  have hpoint : Apart Char.isDigit ('.' :: d :: (ds ++ rest)) := .cons (by decide) _
  have hwhole := hpoint.takeWhile_append fun c hc => hdigits c (List.mem_append_left _ hc)
  have hrun := hrest.takeWhile_append fun c hc => hdigits c (List.mem_append_right whole hc)
  have hd : d.isDigit = true := hdigits d (by simp)
  simp only [List.cons_append] at hrun
  simp only [Token.readNumber, List.append_assoc, List.cons_append, hwhole.1, hwhole.2, hd, if_true,
    hrun.1, hrun.2]

theorem readText_text {quote : Char} {body rest : List Char} (hbody : quote ∉ body) :
    Token.readText quote (body ++ [quote] ++ rest) =
      some (.literal (.text (String.ofList body)), rest) := by
  have hquote : Apart (· != quote) (quote :: rest) := .cons (by simp) rest
  have hchars : ∀ c ∈ body, (c != quote) = true := by
    intro c hc
    refine bne_iff_ne.mpr ?_
    rintro rfl
    exact hbody hc
  have hrun := hquote.takeWhile_append hchars
  simp only [Token.readText, List.append_assoc, List.singleton_append, hrun.1, hrun.2]

theorem Lexeme.read {w rest : List Char} {t : Token} (h : Lexeme w rest t)
    (hrest : Separate t rest) {c : Char} {cs : List Char} (hw : w = c :: cs) :
    Token.read c (cs ++ rest) = some (t, rest) := by
  cases h with
  | word hword hend =>
      simpa only [ofWord_of_mem_reserved hword] using
        read_word (isWord_of_mem_reserved _ hword) hend hw
  | name hword hfree hend =>
      simpa only [ofWord_of_not_mem_reserved hfree] using read_word hword hend hw
  | symbol hsymbol => exact read_symbol hsymbol hrest hw
  | assign hend =>
      cases hw
      have hnext : ∀ cs, rest ≠ '=' :: cs := by
        rintro cs rfl
        cases hend '=' cs rfl
      refine (read_eq_readSymbol (by decide) (by decide) (by decide) (by decide) rest).trans ?_
      exact readSymbol_alone rfl fun cs hcs => absurd hcs (hnext cs)
  | integer _ hdigits hn =>
      subst hw
      have hc : c.isDigit = true := hdigits c List.mem_cons_self
      simp only [Token.read, hc, if_true]
      exact readNumber_integer hdigits hn hrest
  | fraction hwhole hdecimals hdigits =>
      rcases List.exists_cons_of_ne_nil hwhole with ⟨d, ds, rfl⟩
      have hread := readNumber_fraction hdecimals hdigits hrest.1
      cases hw
      have hc : c.isDigit = true := hdigits c (by simp)
      simp only [Token.read, hc, if_true]
      exact hread
  | text hquote hbody =>
      cases hw
      have hdigit : c.isDigit = false := by
        rcases hquote with rfl | rfl <;> decide
      have hquotes : (c == '"' || c == '\'') = true := by simpa using hquote
      simp only [Token.read, hdigit, hquotes, if_true, Bool.false_eq_true, if_false]
      exact readText_text hbody

/-- Of the lists of tokens that a line spells, the scanner finds the one in which no token could
have merged with the next. -/
theorem ofLine_eq_of_spells {line : List Char} {ts : List Token} (h : Spells line ts)
    (hfits : ts.IsChain fun t u => t.merges u = false) : Token.ofLine line = ts := by
  induction h with
  | blank hs => simpa [ofLine_nil] using ofLine_append hs []
  | comment text hs => exact (ofLine_append hs ('#' :: text)).trans (scan_comment [] text)
  | @token s w rest t ts hs hlexeme hrest ih =>
      -- a token that does not merge with the next stands apart from it, so it is read whole
      rcases List.isChain_cons.1 hfits with ⟨hhead, hchain⟩
      rcases hlexeme.leads with ⟨c, cs, rfl, hc⟩
      have hread := hlexeme.read (hrest.separate hhead) rfl
      simp only [ofLine_append hs, List.cons_append, ofLine_token hc.not_blank hc.ne_hash hread,
        ih hchain]

end Script
end CodeSessions
