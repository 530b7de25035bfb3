import Mathlib.Data.List.ModifyLast
import SiriusDrive.HttpServer

/-! # The requests that are accepted

The parser goes over the input character by character. The texts it accepts are those of a
grammar, each with the request that the text stands for; what follows the text is not touched.
-/

namespace SiriusDrive.Http

/-- The parser accepts the input up to `rest` and has read `request`. -/
def Accepts (parser : Parser) (input rest : List UInt8) (request : Request) : Prop :=
  ∃ last, parser.parse input = (.good, rest, last) ∧ last.request = request

namespace Accepts

variable {state next : ParserState} {request result : Request} {input rest : List UInt8}

theorem nil_iff {parser : Parser} : Accepts parser [] rest result ↔ False := by
  simp [Accepts, Parser.parse]

theorem cons_iff {parser after : Parser} {c : UInt8} {isExpected : Bool}
    (consumes : parser.consume c = parser.expect isExpected after) :
    Accepts parser (c :: input) rest result ↔
      isExpected = true ∧ Accepts after input rest result := by
  cases isExpected <;> simp [Accepts, Parser.parse, consumes, Parser.expect]

theorem cons_iff_of_indeterminate {parser : Parser} (after : Parser) {c : UInt8}
    (consumes : parser.consume c = (.indeterminate, after)) :
    Accepts parser (c :: input) rest result ↔ Accepts after input rest result := by
  simp [Accepts, Parser.parse, consumes]

theorem step_iff {allowed : UInt8 → Bool} {push : Request → UInt8 → Request}
    (consumes : ∀ request c, Parser.consume ⟨state, request⟩ c =
      Parser.expect ⟨state, request⟩ (allowed c) ⟨next, push request c⟩) :
    Accepts ⟨state, request⟩ input rest result ↔ ∃ c more, input = c :: more ∧ allowed c = true ∧
      Accepts ⟨next, push request c⟩ more rest result := by
  cases input with
  | nil => simp [nil_iff]
  | cons c input => simp [cons_iff (consumes request c)]

theorem char_iff {c : UInt8} {push : Request → Request}
    (consumes : ∀ request input, Parser.consume ⟨state, request⟩ input =
      Parser.expect ⟨state, request⟩ (input = c) ⟨next, push request⟩) :
    Accepts ⟨state, request⟩ input rest result ↔ ∃ more, input = c :: more ∧
      Accepts ⟨next, push request⟩ more rest result := by
  rw [@step_iff state next request result input rest (fun input => decide (input = c))
    (fun request _ => push request) consumes]
  simp

/-- A state that takes the characters of a kind up to a character that ends them. -/
theorem loop_iff {stop : UInt8} {allowed : UInt8 → Bool} {push : Request → UInt8 → Request}
    (consumes : ∀ request c, Parser.consume ⟨state, request⟩ c =
      if c = stop then (.indeterminate, ⟨next, request⟩)
      else Parser.expect ⟨state, request⟩ (allowed c) ⟨state, push request c⟩) :
    Accepts ⟨state, request⟩ input rest result ↔ ∃ chars more, input = chars ++ stop :: more ∧
      (∀ c ∈ chars, c ≠ stop ∧ allowed c = true) ∧
      Accepts ⟨next, chars.foldl push request⟩ more rest result := by
  induction input generalizing request with
  | nil => simp [nil_iff]
  | cons c input ih =>
      by_cases isStop : c = stop
      · subst isStop
        have stops : Parser.consume ⟨state, request⟩ c = (.indeterminate, ⟨next, request⟩) := by
          simp [consumes]
        rw [cons_iff_of_indeterminate _ stops]
        constructor
        · intro accepts
          exact ⟨[], input, by simp, by simp, accepts⟩
        · rintro ⟨chars, more, split, areAllowed, accepts⟩
          cases chars with
          | nil =>
              simp only [List.nil_append, List.cons.injEq, true_and] at split
              simpa [split] using accepts
          | cons first chars =>
              simp only [List.cons_append, List.cons.injEq] at split
              exact absurd split.1.symm (areAllowed first (by simp)).1
      · have goesOn : Parser.consume ⟨state, request⟩ c =
            Parser.expect ⟨state, request⟩ (allowed c) ⟨state, push request c⟩ := by
          simp [consumes, isStop]
        rw [cons_iff goesOn, ih]
        constructor
        · rintro ⟨isAllowed, chars, more, rfl, areAllowed, accepts⟩
          refine ⟨c :: chars, more, by simp, ?_, by simpa using accepts⟩
          intro d member
          cases List.mem_cons.mp member with
          | inl same => exact same ▸ ⟨isStop, isAllowed⟩
          | inr later => exact areAllowed d later
        · rintro ⟨chars, more, split, areAllowed, accepts⟩
          cases chars with
          | nil =>
              simp only [List.nil_append, List.cons.injEq] at split
              exact absurd split.1 isStop
          | cons first chars =>
              simp only [List.cons_append, List.cons.injEq] at split
              obtain ⟨rfl, rfl⟩ := split
              exact ⟨(areAllowed c (by simp)).2, chars, more, rfl,
                fun d member => areAllowed d (List.mem_cons_of_mem _ member), by simpa using accepts⟩

end Accepts

/-! ## The grammar -/

def isBlank (c : UInt8) : Bool := c == ' '.toUInt8 || c == '\t'.toUInt8

def crlf : List UInt8 := text "\r\n"

theorem crlf_eq : crlf = ['\r'.toUInt8, '\n'.toUInt8] := rfl

/-- A line that continues the value of a header. -/
structure Continuation where
  blanks : List UInt8
  value : List UInt8
  blanks_ne : blanks ≠ []
  areBlanks : ∀ c ∈ blanks, isBlank c = true
  isValue : ∀ c ∈ value, isCtl c = false
  notBlank : value.head? ≠ some ' '.toUInt8

/-- A header with the lines that continue its value. -/
structure HeaderText where
  name : List UInt8
  value : List UInt8
  continuations : List Continuation
  name_ne : name ≠ []
  isName : ∀ c ∈ name, isToken c = true
  isValue : ∀ c ∈ value, isCtl c = false

/-- A request as it is written. -/
structure RequestText where
  method : List UInt8
  uri : List UInt8
  major : List UInt8
  minor : List UInt8
  headers : List HeaderText
  method_ne : method ≠ []
  isMethod : ∀ c ∈ method, isToken c = true
  isUri : ∀ c ∈ uri, c ≠ ' '.toUInt8 ∧ isCtl c = false
  major_ne : major ≠ []
  isMajor : ∀ c ∈ major, isDigit c = true
  minor_ne : minor ≠ []
  isMinor : ∀ c ∈ minor, isDigit c = true

def Continuation.bytes (continuation : Continuation) : List UInt8 :=
  continuation.blanks ++ continuation.value ++ crlf

def HeaderText.bytes (header : HeaderText) : List UInt8 :=
  header.name ++ text ": " ++ header.value ++ crlf ++
    header.continuations.flatMap Continuation.bytes

def RequestText.bytes (request : RequestText) : List UInt8 :=
  request.method ++ text " " ++ request.uri ++ text " HTTP/" ++ request.major ++ text "." ++
    request.minor ++ crlf ++ request.headers.flatMap HeaderText.bytes ++ crlf

/-- The number that digits stand for. -/
def number (digits : List UInt8) : Nat :=
  digits.foldl (fun number c => number * 10 + (c.toNat - '0'.toUInt8.toNat)) 0

/-- The number that is read from digits. -/
def readNumber (digits : List UInt8) : Int32 := digits.foldl appendDigit 0

/-- Digits are read as the number they stand for, as far as this is an `int`. -/
theorem readNumber_eq {digits : List UInt8} (areDigits : ∀ c ∈ digits, isDigit c = true) :
    readNumber digits = Int32.ofNat (number digits) := by
  have folds (start : Nat) : digits.foldl appendDigit (Int32.ofNat start) = Int32.ofNat
      (digits.foldl (fun number c => number * 10 + (c.toNat - '0'.toUInt8.toNat)) start) := by
    induction digits generalizing start with
    | nil => rfl
    | cons c digits ih =>
        have isDigit : '0'.toUInt8.toNat ≤ c.toNat := by
          have both : '0'.toUInt8 ≤ c ∧ c ≤ '9'.toUInt8 := by
            simpa [Http.isDigit] using areDigits c (by simp)
          exact UInt8.le_iff_toNat_le.mp both.1
        have appended : appendDigit (Int32.ofNat start) c =
            Int32.ofNat (start * 10 + (c.toNat - '0'.toUInt8.toNat)) := by
          rw [appendDigit, Int32.ofNat_add, Int32.ofNat_mul, Int32.ofNat_sub _ _ isDigit,
            Int32.sub_eq_add_neg, Int32.sub_eq_add_neg, Int32.add_assoc]
          rfl
        rw [List.foldl_cons, List.foldl_cons, appended]
        exact ih (fun d member => areDigits d (by simp [member])) _
  exact folds 0

/-- The value goes on where the blanks of a continuation end. -/
def HeaderText.header (header : HeaderText) : Header where
  name := header.name
  value := header.value ++ header.continuations.flatMap (·.value)

/-- The request that a text stands for, with the numbers of its version as `int`. -/
def RequestText.request (text : RequestText) : Request where
  method := text.method
  uri := text.uri
  httpVersionMajor := Int32.ofNat (number text.major)
  httpVersionMinor := Int32.ofNat (number text.minor)
  headers := text.headers.map HeaderText.header

/-! ## The lines of the headers -/

def Request.appendName (request : Request) (chars : List UInt8) : Request :=
  { request with headers := request.headers.modifyLast fun header =>
      { header with name := header.name ++ chars } }

def Request.appendValue (request : Request) (chars : List UInt8) : Request :=
  { request with headers := request.headers.modifyLast fun header =>
      { header with value := header.value ++ chars } }

/-- The request after these continuations of its last header and these headers. -/
def Request.addLines (request : Request) (continuations : List Continuation)
    (headers : List HeaderText) : Request :=
  { request with headers :=
      (request.appendValue (continuations.flatMap (·.value))).headers ++
        headers.map HeaderText.header }

section Pushes

variable {request : Request}

private theorem modifyLast_modifyLast {α : Type*} (f g : α → α) (items : List α) :
    (items.modifyLast f).modifyLast g = items.modifyLast (g ∘ f) := by
  cases List.eq_nil_or_concat items with
  | inl isNil => subst isNil; rfl
  | inr isConcat =>
      obtain ⟨front, last, rfl⟩ := isConcat
      simp [List.modifyLast_concat]

private theorem modifyLast_id {α : Type*} (items : List α) : items.modifyLast id = items := by
  cases List.eq_nil_or_concat items with
  | inl isNil => subst isNil; rfl
  | inr isConcat =>
      obtain ⟨front, last, rfl⟩ := isConcat
      simp [List.modifyLast_concat]

theorem appendName_nil : request.appendName [] = request := by
  have unchanged : (fun header : Header => { header with name := header.name ++ [] }) = id := by
    funext header
    simp
  simp only [Request.appendName, unchanged, modifyLast_id]

theorem appendValue_nil : request.appendValue [] = request := by
  have unchanged : (fun header : Header => { header with value := header.value ++ [] }) = id := by
    funext header
    simp
  simp only [Request.appendValue, unchanged, modifyLast_id]

theorem appendValue_append (first second : List UInt8) :
    (request.appendValue first).appendValue second = request.appendValue (first ++ second) := by
  simp [Request.appendValue, modifyLast_modifyLast, Function.comp_def]

theorem appendValue_pushValue (c : UInt8) (chars : List UInt8) :
    (request.pushValue c).appendValue chars = request.appendValue (c :: chars) :=
  appendValue_append [c] chars

theorem appendName_pushed (headers : List Header) (c : UInt8) (chars : List UInt8) :
    Request.appendName { request with headers := headers ++ [{ name := [c] }] } chars =
      { request with headers := headers ++ [{ name := c :: chars }] } := by
  simp [Request.appendName, List.modifyLast_concat]

theorem appendValue_pushed (headers : List Header) (header : Header) (chars : List UInt8) :
    Request.appendValue { request with headers := headers ++ [header] } chars =
      { request with headers := headers ++ [{ header with value := header.value ++ chars }] } := by
  simp [Request.appendValue, List.modifyLast_concat]

theorem foldl_pushName (chars : List UInt8) :
    chars.foldl Request.pushName request = request.appendName chars := by
  induction chars generalizing request with
  | nil => simp [appendName_nil]
  | cons c chars ih =>
      simp [ih, Request.pushName, Request.appendName, modifyLast_modifyLast, Function.comp_def]

theorem foldl_pushValue (chars : List UInt8) :
    chars.foldl Request.pushValue request = request.appendValue chars := by
  induction chars generalizing request with
  | nil => simp [appendValue_nil]
  | cons c chars ih =>
      simp [ih, Request.pushValue, Request.appendValue, modifyLast_modifyLast, Function.comp_def]

theorem headers_appendValue_ne (hasHeader : request.headers ≠ []) (chars : List UInt8) :
    (request.appendValue chars).headers ≠ [] := by
  obtain ⟨front, last, isConcat⟩ := List.eq_nil_or_concat request.headers |>.resolve_left hasHeader
  simp [Request.appendValue, isConcat, List.modifyLast_concat]

theorem addLines_nil : request.addLines [] [] = request := by
  have unchanged := congrArg Request.headers (@appendValue_nil request)
  simp [Request.addLines, unchanged]

theorem addLines_appendValue (continuation : Continuation) (continuations : List Continuation)
    (headers : List HeaderText) :
    (request.appendValue continuation.value).addLines continuations headers =
      request.addLines (continuation :: continuations) headers := by
  simp [Request.addLines, Request.appendValue, modifyLast_modifyLast, Function.comp_def]

theorem addLines_header (header : HeaderText) (headers : List HeaderText) :
    Request.addLines
        { request with headers := request.headers ++ [{ name := header.name, value := header.value }] }
        header.continuations headers =
      request.addLines [] (header :: headers) := by
  have unchanged := congrArg Request.headers (@appendValue_nil request)
  simp [Request.addLines, appendValue_pushed, unchanged, HeaderText.header]

end Pushes

namespace Accepts

variable {request result : Request} {input rest : List UInt8}

theorem isToken_ne {c : UInt8} (allowed : isToken c = true) :
    c ≠ ' '.toUInt8 ∧ c ≠ ':'.toUInt8 ∧ c ≠ '\r'.toUInt8 ∧ isBlank c = false := by
  refine ⟨?_, ?_, ?_, ?_⟩
  · rintro rfl
    revert allowed
    decide
  · rintro rfl
    revert allowed
    decide
  · rintro rfl
    revert allowed
    decide
  · by_contra isBlank
    simp only [Http.isBlank, Bool.not_eq_false, Bool.or_eq_true, beq_iff_eq] at isBlank
    cases isBlank with
    | inl same =>
        subst same
        revert allowed
        decide
    | inr same =>
        subst same
        revert allowed
        decide

theorem cr_ne_of_isCtl {c : UInt8} (notCtl : isCtl c = false) : c ≠ '\r'.toUInt8 := by
  rintro rfl
  revert notCtl
  decide

theorem newline2_iff : Accepts ⟨.expectingNewline2, request⟩ input rest result ↔
    ∃ more, input = '\n'.toUInt8 :: more ∧
      Accepts ⟨.headerLineStart, request⟩ more rest result :=
  @char_iff .expectingNewline2 .headerLineStart request result input rest '\n'.toUInt8 id
    (fun _ _ => rfl)

theorem headerValue_iff : Accepts ⟨.headerValue, request⟩ input rest result ↔
    ∃ value more, input = value ++ crlf ++ more ∧ (∀ c ∈ value, isCtl c = false) ∧
      Accepts ⟨.headerLineStart, request.appendValue value⟩ more rest result := by
  rw [@loop_iff .headerValue .expectingNewline2 request result input rest '\r'.toUInt8
    (fun c => !isCtl c) Request.pushValue (fun _ _ => rfl)]
  simp only [newline2_iff, foldl_pushValue, Bool.not_eq_eq_eq_not, Bool.not_true]
  constructor
  · rintro ⟨value, afterCr, rfl, isValue, more, rfl, accepts⟩
    exact ⟨value, more, by simp [crlf, text], fun c member => (isValue c member).2, accepts⟩
  · rintro ⟨value, more, rfl, isValue, accepts⟩
    exact ⟨value, _, by simp [crlf, text],
      fun c member => ⟨cr_ne_of_isCtl (isValue c member), isValue c member⟩, more, rfl, accepts⟩

theorem headerName_iff : Accepts ⟨.headerName, request⟩ input rest result ↔
    ∃ name more, input = name ++ text ": " ++ more ∧ (∀ c ∈ name, isToken c = true) ∧
      Accepts ⟨.headerValue, request.appendName name⟩ more rest result := by
  rw [@loop_iff .headerName .spaceBeforeHeaderValue request result input rest ':'.toUInt8 isToken
    Request.pushName (fun _ _ => rfl)]
  have space : ∀ {request : Request} {input : List UInt8},
      Accepts ⟨.spaceBeforeHeaderValue, request⟩ input rest result ↔
        ∃ more, input = ' '.toUInt8 :: more ∧ Accepts ⟨.headerValue, request⟩ more rest result :=
    @fun request input => @char_iff .spaceBeforeHeaderValue .headerValue request result input rest
      ' '.toUInt8 id (fun _ _ => rfl)
  simp only [space, foldl_pushName]
  constructor
  · rintro ⟨name, afterColon, rfl, isName, more, rfl, accepts⟩
    exact ⟨name, more, by simp [text], fun c member => (isName c member).2, accepts⟩
  · rintro ⟨name, more, rfl, isName, accepts⟩
    exact ⟨name, _, by simp [text],
      fun c member => ⟨(isToken_ne (isName c member)).2.1, isName c member⟩, more, rfl, accepts⟩

theorem headerLws_iff : Accepts ⟨.headerLws, request⟩ input rest result ↔
    ∃ blanks value more, input = blanks ++ value ++ crlf ++ more ∧
      (∀ c ∈ blanks, isBlank c = true) ∧ (∀ c ∈ value, isCtl c = false) ∧
      value.head? ≠ some ' '.toUInt8 ∧
      Accepts ⟨.headerLineStart, request.appendValue value⟩ more rest result := by
  induction input with
  | nil => simp [nil_iff, crlf_eq]
  | cons c input ih =>
      constructor
      · intro accepts
        by_cases isCr : c = '\r'.toUInt8
        · subst isCr
          rw [cons_iff_of_indeterminate ⟨.expectingNewline2, request⟩ rfl,
            newline2_iff] at accepts
          obtain ⟨more, rfl, accepts⟩ := accepts
          exact ⟨[], [], more, by simp [crlf_eq], by simp, by simp, by simp,
            by simpa [appendValue_nil] using accepts⟩
        · by_cases blank : isBlank c = true
          · have skips : Parser.consume ⟨.headerLws, request⟩ c =
                (.indeterminate, ⟨.headerLws, request⟩) := by
              simp only [isBlank, Bool.or_eq_true, beq_iff_eq] at blank
              simp [Parser.consume, isCr, blank]
            rw [cons_iff_of_indeterminate _ skips, ih] at accepts
            obtain ⟨blanks, value, more, rfl, areBlanks, isValue, notBlank, accepts⟩ := accepts
            exact ⟨c :: blanks, value, more, by simp, by simpa [blank] using areBlanks, isValue,
              notBlank, accepts⟩
          · have goesOn : Parser.consume ⟨.headerLws, request⟩ c = Parser.expect
                ⟨.headerLws, request⟩ (!isCtl c) ⟨.headerValue, request.pushValue c⟩ := by
              simp only [isBlank, Bool.or_eq_true, beq_iff_eq] at blank
              simp [Parser.consume, isCr, blank]
            rw [cons_iff goesOn, headerValue_iff] at accepts
            obtain ⟨notCtl, value, more, rfl, isValue, accepts⟩ := accepts
            simp only [Bool.not_eq_eq_eq_not, Bool.not_true] at notCtl
            simp only [isBlank, Bool.or_eq_true, beq_iff_eq, not_or] at blank
            exact ⟨[], c :: value, more, by simp, by simp, by simpa [notCtl] using isValue,
              by simpa using blank.1, by simpa [appendValue_pushValue] using accepts⟩
      · rintro ⟨blanks, value, more, split, areBlanks, isValue, notBlank, accepts⟩
        cases blanks with
        | cons blank blanks =>
            simp only [List.cons_append, List.cons.injEq] at split
            obtain ⟨rfl, rfl⟩ := split
            have blank := areBlanks c (by simp)
            have skips : Parser.consume ⟨.headerLws, request⟩ c =
                (.indeterminate, ⟨.headerLws, request⟩) := by
              have notCr : c ≠ '\r'.toUInt8 := by
                rintro rfl
                revert blank
                decide
              simp only [isBlank, Bool.or_eq_true, beq_iff_eq] at blank
              simp [Parser.consume, notCr, blank]
            rw [cons_iff_of_indeterminate _ skips, ih]
            exact ⟨blanks, value, more, rfl, fun d member => areBlanks d (by simp [member]), isValue,
              notBlank, accepts⟩
        | nil =>
            cases value with
            | nil =>
                simp only [List.nil_append, crlf_eq, List.cons_append, List.cons.injEq] at split
                obtain ⟨rfl, rfl⟩ := split
                rw [cons_iff_of_indeterminate ⟨.expectingNewline2, request⟩ rfl,
                  newline2_iff]
                exact ⟨more, rfl, by simpa [appendValue_nil] using accepts⟩
            | cons first value =>
                simp only [List.nil_append, List.cons_append, List.cons.injEq] at split
                obtain ⟨rfl, rfl⟩ := split
                have notCtl := isValue c (by simp)
                have isCr := cr_ne_of_isCtl notCtl
                have notTab : c ≠ '\t'.toUInt8 := by
                  rintro rfl
                  revert notCtl
                  decide
                have notSpace : c ≠ ' '.toUInt8 := by simpa using notBlank
                have goesOn : Parser.consume ⟨.headerLws, request⟩ c = Parser.expect
                    ⟨.headerLws, request⟩ (!isCtl c) ⟨.headerValue, request.pushValue c⟩ := by
                  simp [Parser.consume, isCr, notTab, notSpace]
                rw [cons_iff goesOn, headerValue_iff]
                refine ⟨by simp [notCtl], value, more, by simp, fun d member =>
                  isValue d (by simp [member]), ?_⟩
                simpa [appendValue_pushValue] using accepts

theorem newline3_iff : Accepts ⟨.expectingNewline3, request⟩ input rest result ↔
    input = '\n'.toUInt8 :: rest ∧ result = request := by
  cases input with
  | nil => simp [nil_iff]
  | cons c input =>
      by_cases isNewline : c = '\n'.toUInt8
      · simp [Accepts, Parser.parse, Parser.consume, isNewline, eq_comm]
      · simp [Accepts, Parser.parse, Parser.consume, isNewline]

/-- A line that starts with a character that is neither a blank nor the end of the lines. -/
theorem headerStart_iff {c : UInt8} (notCr : c ≠ '\r'.toUInt8)
    (notBlank : request.headers ≠ [] → isBlank c = false) :
    Accepts ⟨.headerLineStart, request⟩ (c :: input) rest result ↔ isToken c = true ∧
      ∃ name value more, input = name ++ text ": " ++ value ++ crlf ++ more ∧
        (∀ d ∈ name, isToken d = true) ∧ (∀ d ∈ value, isCtl d = false) ∧
        Accepts ⟨.headerLineStart, { request with headers := request.headers ++
          [{ name := c :: name, value := value }] }⟩ more rest result := by
  have goesOn : Parser.consume ⟨.headerLineStart, request⟩ c = Parser.expect
      ⟨.headerLineStart, request⟩ (isToken c) ⟨.headerName,
        { request with headers := request.headers ++ [{ name := [c] }] }⟩ := by
    by_cases noHeaders : request.headers = []
    · simp [Parser.consume, notCr, noHeaders]
    · have isName := notBlank noHeaders
      simp only [isBlank, Bool.or_eq_false_iff, beq_eq_false_iff_ne] at isName
      simp [Parser.consume, notCr, isName]
  rw [cons_iff goesOn, headerName_iff]
  simp only [headerValue_iff, appendName_pushed, appendValue_pushed, List.nil_append]
  constructor
  · rintro ⟨allowed, name, after, rfl, isName, value, more, rfl, isValue, accepts⟩
    exact ⟨allowed, name, value, more, by simp, isName, isValue, accepts⟩
  · rintro ⟨allowed, name, value, more, rfl, isName, isValue, accepts⟩
    exact ⟨allowed, name, _, by simp [List.append_assoc]; rfl, isName, value, more, by simp, isValue,
      accepts⟩

theorem blankStart_iff {c : UInt8} (hasHeader : request.headers ≠ []) (blank : isBlank c = true) :
    Accepts ⟨.headerLineStart, request⟩ (c :: input) rest result ↔
      Accepts ⟨.headerLws, request⟩ input rest result := by
  have notCr : c ≠ '\r'.toUInt8 := by
    rintro rfl
    revert blank
    decide
  simp only [isBlank, Bool.or_eq_true, beq_iff_eq] at blank
  exact cons_iff_of_indeterminate ⟨.headerLws, request⟩
    (by simp [Parser.consume, notCr, hasHeader, blank])

/-- The lines after the start of a line: continuations of the last header, if there is one, then
    the other headers and the empty line. -/
theorem headerLineStart_iff : Accepts ⟨.headerLineStart, request⟩ input rest result ↔
    ∃ (continuations : List Continuation) (headers : List HeaderText),
      (continuations ≠ [] → request.headers ≠ []) ∧
      input = continuations.flatMap Continuation.bytes ++ headers.flatMap HeaderText.bytes ++ crlf ++
        rest ∧
      result = request.addLines continuations headers := by
  induction length : input.length using Nat.strongRecOn generalizing input request with
  | _ n ih =>
      subst length
      constructor
      · intro accepts
        cases input with
        | nil => simp [nil_iff] at accepts
        | cons c input =>
            by_cases isCr : c = '\r'.toUInt8
            · subst isCr
              rw [cons_iff_of_indeterminate ⟨.expectingNewline3, request⟩ rfl,
                newline3_iff] at accepts
              obtain ⟨rfl, rfl⟩ := accepts
              exact ⟨[], [], by simp, by simp [crlf_eq], addLines_nil.symm⟩
            · by_cases blank : request.headers ≠ [] ∧ isBlank c = true
              · rw [blankStart_iff blank.1 blank.2, headerLws_iff] at accepts
                obtain ⟨blanks, value, more, rfl, areBlanks, isValue, notBlank, accepts⟩ := accepts
                obtain ⟨continuations, headers, -, rfl, rfl⟩ :=
                  (ih more.length (by simp; omega) rfl).mp accepts
                let continuation : Continuation :=
                  { blanks := c :: blanks, value := value, blanks_ne := by simp,
                    areBlanks := by simpa [blank.2] using areBlanks, isValue := isValue,
                    notBlank := notBlank }
                exact ⟨continuation :: continuations, headers, fun _ => blank.1,
                  by simp [Continuation.bytes, continuation],
                  addLines_appendValue continuation continuations headers⟩
              · have notBlank : request.headers ≠ [] → isBlank c = false := by
                  intro hasHeader
                  simpa [hasHeader] using blank
                rw [headerStart_iff isCr notBlank] at accepts
                obtain ⟨allowed, name, value, more, rfl, isName, isValue, accepts⟩ := accepts
                obtain ⟨continuations, headers, -, rfl, rfl⟩ :=
                  (ih more.length (by simp; omega) rfl).mp accepts
                let header : HeaderText :=
                  { name := c :: name, value := value, continuations := continuations,
                    name_ne := by simp, isName := by simpa [allowed] using isName,
                    isValue := isValue }
                exact ⟨[], header :: headers, by simp, by simp [HeaderText.bytes, header],
                  addLines_header header headers⟩
      · rintro ⟨continuations, headers, hasHeader, rfl, rfl⟩
        cases continuations with
        | cons continuation continuations =>
            obtain ⟨blanks, value, blanks_ne, areBlanks, isValue, notBlank⟩ := continuation
            obtain ⟨c, blanks, rfl⟩ := List.exists_cons_of_ne_nil blanks_ne
            have withHeader := hasHeader (by simp)
            simp only [List.flatMap_cons, Continuation.bytes, List.cons_append, List.append_assoc]
            rw [blankStart_iff withHeader (areBlanks c (by simp)), headerLws_iff]
            refine ⟨blanks, value, continuations.flatMap Continuation.bytes ++
              (headers.flatMap HeaderText.bytes ++ (crlf ++ rest)), by simp only [List.append_assoc],
              fun d member => areBlanks d (by simp [member]), isValue, notBlank, ?_⟩
            apply (ih _ _ rfl).mpr
            · exact ⟨continuations, headers, fun _ => headers_appendValue_ne withHeader value,
                by simp, (addLines_appendValue _ continuations headers).symm⟩
            · simp [Continuation.bytes]
              omega
        | nil =>
            cases headers with
            | nil =>
                simp only [List.flatMap_nil, List.nil_append, crlf_eq, List.cons_append]
                rw [cons_iff_of_indeterminate ⟨.expectingNewline3, request⟩ rfl, newline3_iff]
                exact ⟨rfl, addLines_nil⟩
            | cons header headers =>
                obtain ⟨name, value, continuations, name_ne, isName, isValue⟩ := header
                obtain ⟨c, name, rfl⟩ := List.exists_cons_of_ne_nil name_ne
                obtain ⟨-, -, notCr, notBlank⟩ := isToken_ne (isName c (by simp))
                simp only [List.flatMap_nil, List.nil_append, List.flatMap_cons, HeaderText.bytes,
                  List.cons_append, List.append_assoc]
                rw [headerStart_iff notCr fun _ => notBlank]
                refine ⟨isName c (by simp), name, value,
                  continuations.flatMap Continuation.bytes ++
                    (headers.flatMap HeaderText.bytes ++ (crlf ++ rest)),
                  by simp only [List.append_assoc], fun d member => isName d (by simp [member]), isValue, ?_⟩
                apply (ih _ _ rfl).mpr
                · exact ⟨continuations, headers, by simp, by simp, (addLines_header _ headers).symm⟩
                · simp [HeaderText.bytes]
                  omega

/-- A number of the version, after its first digit, up to the character that ends it. -/
theorem major_iff : Accepts ⟨.httpVersionMajor, request⟩ input rest result ↔
    ∃ digits more, input = digits ++ '.'.toUInt8 :: more ∧ (∀ c ∈ digits, isDigit c = true) ∧
      Accepts ⟨.httpVersionMinorStart, { request with
        httpVersionMajor := digits.foldl appendDigit request.httpVersionMajor }⟩ more rest result := by
  rw [@loop_iff .httpVersionMajor .httpVersionMinorStart request result input rest '.'.toUInt8 isDigit
    (fun request c => { request with
      httpVersionMajor := appendDigit request.httpVersionMajor c }) (fun _ _ => rfl)]
  have pushes : ∀ (digits : List UInt8) (request : Request),
      digits.foldl (fun request c => { request with
          httpVersionMajor := appendDigit request.httpVersionMajor c }) request =
        { request with httpVersionMajor := digits.foldl appendDigit request.httpVersionMajor } := by
    intro digits
    induction digits with
    | nil => simp
    | cons c digits ih => simp [ih]
  have notStop : ∀ c, isDigit c = true → c ≠ '.'.toUInt8 := by
    rintro c digit rfl
    revert digit
    decide
  simp only [pushes]
  constructor
  · rintro ⟨digits, more, rfl, areDigits, accepts⟩
    exact ⟨digits, more, rfl, fun c member => (areDigits c member).2, accepts⟩
  · rintro ⟨digits, more, rfl, areDigits, accepts⟩
    exact ⟨digits, more, rfl, fun c member => ⟨notStop c (areDigits c member), areDigits c member⟩,
      accepts⟩

theorem minor_iff : Accepts ⟨.httpVersionMinor, request⟩ input rest result ↔
    ∃ digits more, input = digits ++ crlf ++ more ∧ (∀ c ∈ digits, isDigit c = true) ∧
      Accepts ⟨.headerLineStart, { request with
        httpVersionMinor := digits.foldl appendDigit request.httpVersionMinor }⟩ more rest result := by
  rw [@loop_iff .httpVersionMinor .expectingNewline1 request result input rest '\r'.toUInt8 isDigit
    (fun request c => { request with
      httpVersionMinor := appendDigit request.httpVersionMinor c }) (fun _ _ => rfl)]
  have pushes : ∀ (digits : List UInt8) (request : Request),
      digits.foldl (fun request c => { request with
          httpVersionMinor := appendDigit request.httpVersionMinor c }) request =
        { request with httpVersionMinor := digits.foldl appendDigit request.httpVersionMinor } := by
    intro digits
    induction digits with
    | nil => simp
    | cons c digits ih => simp [ih]
  have newline : ∀ {request : Request} {input : List UInt8},
      Accepts ⟨.expectingNewline1, request⟩ input rest result ↔ ∃ more, input = '\n'.toUInt8 :: more ∧
        Accepts ⟨.headerLineStart, request⟩ more rest result :=
    @fun request input => @char_iff .expectingNewline1 .headerLineStart request result input rest
      '\n'.toUInt8 id (fun _ _ => rfl)
  have notStop : ∀ c, isDigit c = true → c ≠ '\r'.toUInt8 := by
    rintro c digit rfl
    revert digit
    decide
  simp only [pushes, newline]
  constructor
  · rintro ⟨digits, after, rfl, areDigits, more, rfl, accepts⟩
    exact ⟨digits, more, by simp [crlf_eq], fun c member => (areDigits c member).2, accepts⟩
  · rintro ⟨digits, more, rfl, areDigits, accepts⟩
    exact ⟨digits, _, by simp [crlf_eq],
      fun c member => ⟨notStop c (areDigits c member), areDigits c member⟩, more, rfl, accepts⟩

theorem version_iff : Accepts ⟨.httpVersionH, request⟩ input rest result ↔
    ∃ major minor more, input = text "HTTP/" ++ major ++ text "." ++ minor ++ crlf ++ more ∧
      major ≠ [] ∧ minor ≠ [] ∧ (∀ c ∈ major, isDigit c = true) ∧ (∀ c ∈ minor, isDigit c = true) ∧
      Accepts ⟨.headerLineStart, { request with
        httpVersionMajor := readNumber major, httpVersionMinor := readNumber minor }⟩ more rest result := by
  rw [@char_iff .httpVersionH .httpVersionT1 request result input rest 'H'.toUInt8 id
    (fun _ _ => rfl)]
  have first : ∀ {request : Request} {input : List UInt8},
      Accepts ⟨.httpVersionT1, request⟩ input rest result ↔ ∃ more, input = 'T'.toUInt8 :: more ∧
        Accepts ⟨.httpVersionT2, request⟩ more rest result :=
    @fun request input => @char_iff .httpVersionT1 .httpVersionT2 request result input rest
      'T'.toUInt8 id (fun _ _ => rfl)
  have second : ∀ {request : Request} {input : List UInt8},
      Accepts ⟨.httpVersionT2, request⟩ input rest result ↔ ∃ more, input = 'T'.toUInt8 :: more ∧
        Accepts ⟨.httpVersionP, request⟩ more rest result :=
    @fun request input => @char_iff .httpVersionT2 .httpVersionP request result input rest
      'T'.toUInt8 id (fun _ _ => rfl)
  have third : ∀ {request : Request} {input : List UInt8},
      Accepts ⟨.httpVersionP, request⟩ input rest result ↔ ∃ more, input = 'P'.toUInt8 :: more ∧
        Accepts ⟨.httpVersionSlash, request⟩ more rest result :=
    @fun request input => @char_iff .httpVersionP .httpVersionSlash request result input rest
      'P'.toUInt8 id (fun _ _ => rfl)
  have slash : ∀ {request : Request} {input : List UInt8},
      Accepts ⟨.httpVersionSlash, request⟩ input rest result ↔ ∃ more, input = '/'.toUInt8 :: more ∧
        Accepts ⟨.httpVersionMajorStart,
          { request with httpVersionMajor := 0, httpVersionMinor := 0 }⟩ more rest result :=
    @fun request input => @char_iff .httpVersionSlash .httpVersionMajorStart request result input rest
      '/'.toUInt8 (fun request => { request with httpVersionMajor := 0, httpVersionMinor := 0 })
      (fun _ _ => rfl)
  have majorStart : ∀ {request : Request} {input : List UInt8},
      Accepts ⟨.httpVersionMajorStart, request⟩ input rest result ↔ ∃ c more, input = c :: more ∧
        isDigit c = true ∧ Accepts ⟨.httpVersionMajor, { request with
          httpVersionMajor := appendDigit request.httpVersionMajor c }⟩ more rest result :=
    @fun request input => @step_iff .httpVersionMajorStart .httpVersionMajor request result input rest
      isDigit (fun request c => { request with
        httpVersionMajor := appendDigit request.httpVersionMajor c }) (fun _ _ => rfl)
  have minorStart : ∀ {request : Request} {input : List UInt8},
      Accepts ⟨.httpVersionMinorStart, request⟩ input rest result ↔ ∃ c more, input = c :: more ∧
        isDigit c = true ∧ Accepts ⟨.httpVersionMinor, { request with
          httpVersionMinor := appendDigit request.httpVersionMinor c }⟩ more rest result :=
    @fun request input => @step_iff .httpVersionMinorStart .httpVersionMinor request result input rest
      isDigit (fun request c => { request with
        httpVersionMinor := appendDigit request.httpVersionMinor c }) (fun _ _ => rfl)
  simp only [first, second, third, slash, majorStart, major_iff, minorStart, minor_iff]
  constructor
  · rintro ⟨_, rfl, _, rfl, _, rfl, _, rfl, _, rfl, c, _, rfl, isFirst, major, _, rfl, isMajor, d, _,
      rfl, isSecond, minor, more, rfl, isMinor, accepts⟩
    exact ⟨c :: major, d :: minor, more, by simp [text], by simp, by simp,
      by simpa [isFirst] using isMajor, by simpa [isSecond] using isMinor,
      by simpa [readNumber] using accepts⟩
  · rintro ⟨major, minor, more, rfl, major_ne, minor_ne, isMajor, isMinor, accepts⟩
    obtain ⟨c, major, rfl⟩ := List.exists_cons_of_ne_nil major_ne
    obtain ⟨d, minor, rfl⟩ := List.exists_cons_of_ne_nil minor_ne
    exact ⟨_, by simp [text]; rfl, _, rfl, _, rfl, _, rfl, _, rfl, c, _, by simp; rfl,
      isMajor c (by simp), major, _, by simp; rfl, fun e member => isMajor e (by simp [member]), d, _,
      by simp; rfl, isMinor d (by simp), minor, more, by simp,
      fun e member => isMinor e (by simp [member]), by simpa [readNumber] using accepts⟩

theorem methodStart_iff : Accepts ⟨.methodStart, request⟩ input rest result ↔
    ∃ method uri more, input = method ++ text " " ++ uri ++ text " " ++ more ∧ method ≠ [] ∧
      (∀ c ∈ method, isToken c = true) ∧ (∀ c ∈ uri, c ≠ ' '.toUInt8 ∧ isCtl c = false) ∧
      Accepts ⟨.httpVersionH, { request with
        method := request.method ++ method, uri := request.uri ++ uri }⟩ more rest result := by
  have methods : ∀ (chars : List UInt8) (request : Request),
      chars.foldl (fun request c => { request with method := request.method ++ [c] }) request =
        { request with method := request.method ++ chars } := by
    intro chars
    induction chars with
    | nil => simp
    | cons c chars ih => simp [ih]
  have uris : ∀ (chars : List UInt8) (request : Request),
      chars.foldl (fun request c => { request with uri := request.uri ++ [c] }) request =
        { request with uri := request.uri ++ chars } := by
    intro chars
    induction chars with
    | nil => simp
    | cons c chars ih => simp [ih]
  have method : ∀ {request : Request} {input : List UInt8},
      Accepts ⟨.method, request⟩ input rest result ↔ _ :=
    @fun request input => @loop_iff .method .uri request result input rest ' '.toUInt8 isToken
      (fun request c => { request with method := request.method ++ [c] }) (fun _ _ => rfl)
  have uri : ∀ {request : Request} {input : List UInt8},
      Accepts ⟨.uri, request⟩ input rest result ↔ _ :=
    @fun request input => @loop_iff .uri .httpVersionH request result input rest ' '.toUInt8
      (fun c => !isCtl c) (fun request c => { request with uri := request.uri ++ [c] })
      (fun _ _ => rfl)
  rw [@step_iff .methodStart .method request result input rest isToken
    (fun request c => { request with method := request.method ++ [c] }) (fun _ _ => rfl)]
  simp only [method, uri, methods, uris, Bool.not_eq_eq_eq_not, Bool.not_true]
  constructor
  · rintro ⟨c, _, rfl, isFirst, chars, _, rfl, isMethod, uri, more, rfl, isUri, accepts⟩
    exact ⟨c :: chars, uri, more, by simp [text], by simp,
      by simpa [isFirst] using fun d member => (isMethod d member).2, isUri, by simpa using accepts⟩
  · rintro ⟨method, uri, more, rfl, method_ne, isMethod, isUri, accepts⟩
    obtain ⟨c, method, rfl⟩ := List.exists_cons_of_ne_nil method_ne
    exact ⟨c, _, by simp; rfl, isMethod c (by simp), method, uri ++ ' '.toUInt8 :: more,
      by simp [text], fun d member => ⟨(isToken_ne (isMethod d (by simp [member]))).1,
        isMethod d (by simp [member])⟩, uri, more, rfl, isUri, by simpa using accepts⟩

end Accepts

/-- The parser accepts the texts of the grammar, each as the request that it stands for. -/
theorem accepts_iff {input rest : List UInt8} {request : Request} :
    Accepts {} input rest request ↔
      ∃ text : RequestText, input = text.bytes ++ rest ∧ request = text.request := by
  rw [Accepts.methodStart_iff]
  simp only [Accepts.version_iff, Accepts.headerLineStart_iff, List.nil_append]
  constructor
  · rintro ⟨method, uri, _, rfl, method_ne, isMethod, isUri, major, minor, _, rfl, major_ne,
      minor_ne, isMajor, isMinor, continuations, headers, noHeader, rfl, rfl⟩
    have noContinuations : continuations = [] := by simpa using noHeader
    subst noContinuations
    rw [readNumber_eq isMajor, readNumber_eq isMinor]
    exact ⟨⟨method, uri, major, minor, headers, method_ne, isMethod, isUri, major_ne, isMajor,
      minor_ne, isMinor⟩, by simp [RequestText.bytes, text],
      by simp [Request.addLines, appendValue_nil, RequestText.request]⟩
  · rintro ⟨⟨method, uri, major, minor, headers, method_ne, isMethod, isUri, major_ne, isMajor,
      minor_ne, isMinor⟩, rfl, rfl⟩
    exact ⟨method, uri, text "HTTP/" ++ major ++ text "." ++ minor ++ crlf ++
        headers.flatMap HeaderText.bytes ++ crlf ++ rest, by simp [RequestText.bytes, text],
      method_ne, isMethod, isUri, major, minor, headers.flatMap HeaderText.bytes ++ crlf ++ rest,
      by simp, major_ne, minor_ne, isMajor, isMinor, [], headers, by simp, by simp,
      by simp [Request.addLines, appendValue_nil, RequestText.request, readNumber_eq isMajor,
        readNumber_eq isMinor]⟩

/-! ## Input in pieces -/

namespace Parser

theorem parse_eq_of_indeterminate {parser last : Parser} {input rest : List UInt8}
    (parses : parser.parse input = (.indeterminate, rest, last)) : rest = [] := by
  induction input generalizing parser with
  | nil =>
      simp only [parse, Prod.mk.injEq, true_and] at parses
      exact parses.1.symm
  | cons c input ih =>
      simp only [parse] at parses
      cases consumed : parser.consume c with
      | mk result next =>
          simp only [consumed] at parses
          cases result with
          | indeterminate => exact ih parses
          | good => simp at parses
          | bad => simp at parses

theorem parse_append (parser : Parser) (input more : List UInt8) :
    parser.parse (input ++ more) =
      match parser.parse input with
      | (.indeterminate, _, last) => last.parse more
      | (result, rest, last) => (result, rest ++ more, last) := by
  induction input generalizing parser with
  | nil => simp [parse]
  | cons c input ih =>
      simp only [List.cons_append, parse]
      cases consumed : parser.consume c with
      | mk result next =>
          cases result with
          | indeterminate => exact ih next
          | good => simp
          | bad => simp

end Parser

/-- What is parsed is a text of the grammar, and what follows it is left. Bad input is the start
    of no text, and no two texts with different requests are the start of one input. -/
theorem parse_spec (input : List UInt8) :
    (∀ rest request, (∃ last, Parser.parse {} input = (.good, rest, last) ∧ last.request = request) ↔
      ∃ text : RequestText, input = text.bytes ++ rest ∧ request = text.request) ∧
    ((Parser.parse {} input).1 = .bad →
      ∀ (text : RequestText) (rest more : List UInt8), input ++ more ≠ text.bytes ++ rest) ∧
    ∀ (text other : RequestText) (rest otherRest : List UInt8), input = text.bytes ++ rest →
      input = other.bytes ++ otherRest → text.request = other.request ∧ rest = otherRest := by
  refine ⟨fun rest request => accepts_iff, ?_, ?_⟩
  · intro isBad text rest more same
    obtain ⟨last, good, -⟩ := accepts_iff.mpr ⟨text, same, rfl⟩
    rw [Parser.parse_append] at good
    cases parsed : Parser.parse {} input with
    | mk result others =>
        simp only [parsed] at isBad good
        subst isBad
        simp at good
  · intro text other rest otherRest isText isOther
    obtain ⟨last, good, isRequest⟩ := accepts_iff.mpr ⟨text, isText, rfl⟩
    obtain ⟨otherLast, otherGood, isOtherRequest⟩ := accepts_iff.mpr ⟨other, isOther, rfl⟩
    rw [good] at otherGood
    simp only [Prod.mk.injEq, true_and] at otherGood
    obtain ⟨sameRest, rfl⟩ := otherGood
    exact ⟨isRequest.symm.trans isOtherRequest, sameRest⟩

end SiriusDrive.Http
