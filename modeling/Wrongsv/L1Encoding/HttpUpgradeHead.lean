import Wrongsv.Core.Lines
import Wrongsv.L1Encoding.HttpUpgrade

/-!
# The HTTP request of HTTPUpgrade

`parse_httpupgrade_request` of server/handler/httpupgrade.rs. It is a
parser of its own beside `parse_upgrade`: no WebSocket key, a `Connection`
header that is a list of tokens, hosts with brackets, and early data in a header
whose name is configured. The limit of 16384 bytes is on the whole buffer, the
bytes behind the empty line included.

The two base64 decoders of the early data are parameters (`Base64`).

Results, beside `AcceptedHead.parse_append`, `splitHead_joinPair`:
* `splitHead_headBytes`, `parseHead_headText`: a head written line by line is
  read back as these lines.
* `parseLines_skip`: a line without a colon is not looked at.
-/
namespace Wrongsv.L1.HttpUpgradeHead
open L1.HttpUpgrade List

/-- httpupgrade.rs:17-26; the TLS settings are
those of `TlsConn` -/
structure HttpUpgradeConfig where
  path : Text
  host : Option Text
  maxEarlyData : Nat
  earlyDataHeaderName : Option Text
  deriving DecidableEq, Repr

structure HttpUpgradeRequest where
  path : Text
  host : Option Text
  deriving DecidableEq, Repr

inductive HttpUpgradeError where
  | notGet
  | pathMismatch (expected got : Text)
  | hostMismatch (expected got : Text)
  | headerTooLarge
  | notHttpUpgrade
  | incomplete
  | invalidRequestLine
  | invalidEarlyData
  | earlyDataTooLarge
  deriving DecidableEq, Repr

/-- `URL_SAFE` and `URL_SAFE_NO_PAD`. -/
structure Base64 where
  urlSafe : Text → Option Bytes
  urlSafeNoPad : Text → Option Bytes

/-! ## The parser -/

/-- `eq_ignore_ascii_case` -/
def eqIgnoreAsciiCase (a b : Text) : Bool := lowercase a == lowercase b

/-- httpupgrade.rs:219-231 -/
def normalizeHost (value : Text) : Text :=
  let value := trim value
  match value with
  | '[' :: rest => if ']' ∈ rest then lowercase (upTo ']' rest) else lowercase (upTo ':' value)
  | _ => lowercase (upTo ':' value)

/-- The headers the upgrade looks at. -/
structure Headers where
  upgrade : Bool := false
  connectionUpgrade : Bool := false
  host : Option Text := none
  earlyData : Option Text := none

def Headers.line (earlyHeaderName : Option Text) (h : Headers) (line : Text) : Headers :=
  let line := trim line
  if line = [] then h
  else match splitOnce ':' line with
    | none => h
    | some (key, value) =>
      let key := lowercase (trim key)
      let value := trim value
      if key = "upgrade".toList then
        if eqIgnoreAsciiCase value "websocket".toList then { h with upgrade := true } else h
      else if key = "connection".toList then
        if (value.splitOn ',').any fun token => eqIgnoreAsciiCase (trim token) "upgrade".toList then
          { h with connectionUpgrade := true }
        else h
      else if key = "host".toList then { h with host := some (normalizeHost value) }
      -- a header name that is configured as one of the three above is never reached
      else if earlyHeaderName = some key then { h with earlyData := some value }
      else h

section
variable (base64 : Base64) (config : HttpUpgradeConfig)

def earlyData (header : Option Text) : Except HttpUpgradeError Bytes :=
  match header with
  | none => .ok []
  | some value =>
    if 0 < config.maxEarlyData ∧ value ≠ [] then
      match base64.urlSafe value <|> base64.urlSafeNoPad value with
      | none => .error .invalidEarlyData
      | some decoded => if config.maxEarlyData < decoded.length then .error .earlyDataTooLarge else .ok decoded
    else .ok []

/-- The request and its early data. -/
def parseLines (ls : List Text) : Except HttpUpgradeError (HttpUpgradeRequest × Bytes) := do
  let requestLine :: headerLines := ls | throw .invalidRequestLine
  let method :: parts := splitWhitespace requestLine | throw .invalidRequestLine
  if method ≠ "GET".toList then throw .notGet
  let rawPath :: _version :: _ := parts | throw .invalidRequestLine
  let path := normalizePath rawPath
  let expected := expectedPathOf config.path
  if path ≠ expected then throw (.pathMismatch expected path)
  let h := headerLines.foldl (Headers.line (config.earlyDataHeaderName.map lowercase)) {}
  if !h.upgrade || !h.connectionUpgrade then throw .notHttpUpgrade
  if let some expected := config.host then
    let got := h.host.getD []
    if !eqIgnoreAsciiCase expected got then throw (.hostMismatch expected got)
  let early ← earlyData base64 config h.earlyData
  return (⟨path, h.host⟩, early)

/-- What is in front of the empty line. -/
def parseHead (head : Bytes) : Except HttpUpgradeError (HttpUpgradeRequest × Bytes) :=
  match String.fromUTF8? ⟨head.toArray⟩ with
  | none => .error .invalidRequestLine
  | some text => parseLines base64 config (lines text.toList)

/-- httpupgrade.rs:91-217 -/
def parseHttpupgradeRequest (buf : Bytes) : Except HttpUpgradeError (HttpUpgradeRequest × Bytes) :=
  if maxHeaderSize < buf.length then .error .headerTooLarge
  else
    match splitHead buf with
    | none => .error .incomplete
    | some (head, pipelined) => (parseHead base64 config head).map fun r => (r.1, r.2 ++ pipelined)

end

/-! ## Heads that are accepted -/

/-- A request head with its empty line that is accepted alone. -/
structure AcceptedHead (base64 : Base64) (config : HttpUpgradeConfig) where
  bytes : Bytes
  request : HttpUpgradeRequest
  early : Bytes
  head : ∃ text, splitHead bytes = some (text, [])
  accepted : parseHttpupgradeRequest base64 config bytes = .ok (request, early)

namespace AcceptedHead

variable {base64 : Base64} {config : HttpUpgradeConfig} (h : AcceptedHead base64 config)

theorem parsed : h.bytes.length ≤ maxHeaderSize ∧ ∃ text, splitHead h.bytes = some (text, []) ∧
    parseHead base64 config text = .ok (h.request, h.early) := by
  obtain ⟨text, htext⟩ := h.head
  have hok := h.accepted
  unfold parseHttpupgradeRequest at hok
  split at hok
  · cases hok
  rename_i hlen
  refine ⟨Nat.not_lt.mp hlen, text, htext, ?_⟩
  rw [htext] at hok
  cases hp : parseHead base64 config text with
  | error e => simp only [hp] at hok; cases hok
  | ok r =>
    simp only [hp, Except.map, append_nil] at hok
    exact hok

theorem length_pos : 0 < h.bytes.length := by
  obtain ⟨text, htext⟩ := h.head
  have := splitHead_length htext
  omega

/-- With bytes behind it, it is accepted if there is room, and they are handed
back behind the early data. -/
theorem parse_append (t : Bytes) : parseHttpupgradeRequest base64 config (h.bytes ++ t) =
      if maxHeaderSize < (h.bytes ++ t).length then .error .headerTooLarge
      else .ok (h.request, h.early ++ t) := by
  obtain ⟨-, text, htext, hp⟩ := h.parsed
  unfold parseHttpupgradeRequest
  split
  · rfl
  rw [splitHead_append htext]
  simp only [hp, nil_append]
  rfl

end AcceptedHead

/-! ## Heads written line by line -/

/-- A line of printable ASCII characters. -/
structure Line where
  text : Text
  ne : text ≠ []
  printable : ∀ c ∈ text, 32 ≤ c.toNat ∧ c.toNat < 127

/-- The lines, with a line ending between any two of them. -/
def headText : List Line → Text
  | [] => []
  | [l] => l.text
  | l :: l' :: ls => l.text ++ ('\r' :: '\n' :: headText (l' :: ls))

/-- The bytes of ASCII characters. -/
def ascii (s : Text) : Bytes := s.map fun c => c.val.toUInt8

def headBytes (ls : List Line) : Bytes := ascii (headText ls) ++ terminator

theorem headText_ascii (ls : List Line) : ∀ c ∈ headText ls, c.toNat < 128 := by
  have hline : ∀ (l : Line), ∀ c ∈ l.text, c.toNat < 128 := fun l c hc => by
    have := l.printable c hc
    omega
  match ls with
  | [] => exact fun c hc => nomatch hc
  | [l] => exact hline l
  | l :: l' :: ls =>
    intro c hc
    simp only [headText, mem_append, mem_cons] at hc
    rcases hc with hc | rfl | rfl | hc
    · exact hline l c hc
    · decide
    · decide
    · exact headText_ascii (l' :: ls) c hc

theorem utf8Encode_ascii {s : Text} (h : ∀ c ∈ s, c.toNat < 128) :
    s.utf8Encode = ⟨(ascii s).toArray⟩ := by
  have hflat : s.flatMap String.utf8EncodeChar = ascii s := by
    induction s with
    | nil => rfl
    | cons c s ih =>
      have hsize : c.utf8Size = 1 := by
        rw [Char.utf8Size_eq_one_iff, UInt32.le_iff_toNat_le]
        exact Nat.le_of_lt_succ (h c mem_cons_self)
      rw [flatMap_cons, String.utf8EncodeChar_eq_singleton hsize,
        ih fun d hd => h d (mem_cons_of_mem _ hd)]
      rfl
  rw [List.utf8Encode, hflat]
  apply ByteArray.ext
  rw [← Array.toList_inj, toList_data_toByteArray]

theorem fromUTF8_ascii {s : Text} (h : ∀ c ∈ s, c.toNat < 128) :
    String.fromUTF8? ⟨(ascii s).toArray⟩ = some (String.ofList s) := by
  have hvalid : s.utf8Encode.IsValidUTF8 := ByteArray.isValidUTF8_utf8Encode
  rw [← utf8Encode_ascii h, String.fromUTF8?, dif_pos hvalid]
  rfl

/-! ### Finding the end -/

theorem splitHead_line {line : Bytes} (h : (13 : UInt8) ∉ line) (rest : Bytes) :
    splitHead (line ++ rest) = (splitHead rest).map fun p => (line ++ p.1, p.2) := by
  induction line with
  | nil => exact Option.map_id'.symm
  | cons a line ih =>
    rw [mem_cons, not_or] at h
    have hp : terminator.isPrefixOf (a :: (line ++ rest)) = false := by
      rw [terminator, List.isPrefixOf, beq_false_of_ne h.1, Bool.false_and]
    rw [cons_append, splitHead, hp, ih h.2, Option.map_map]
    rfl

theorem splitHead_break {b : UInt8} (h : b ≠ 13) (rest : Bytes) :
    splitHead (13 :: 10 :: b :: rest) = (splitHead (b :: rest)).map fun p => (13 :: 10 :: p.1, p.2) := by
  have h1 : terminator.isPrefixOf (13 :: 10 :: b :: rest) = false := by
    simp only [terminator, List.isPrefixOf, beq_false_of_ne h.symm, Bool.false_and, Bool.and_false]
  have h2 : terminator.isPrefixOf (10 :: b :: rest) = false := rfl
  rw [splitHead, h1, splitHead, h2]
  simp only [Bool.false_eq_true, if_false, Option.map_map]
  rfl

theorem toUInt8_ne_cr {c : Char} (h : 32 ≤ c.toNat ∧ c.toNat < 127) : c.val.toUInt8 ≠ 13 := by
  intro heq
  have hnat := congrArg UInt8.toNat heq
  rw [UInt32.toNat_toUInt8] at hnat
  have hc : c.val.toNat = c.toNat := rfl
  rw [hc, show (13 : UInt8).toNat = 13 from rfl] at hnat
  omega

theorem Line.ascii_cr (l : Line) : (13 : UInt8) ∉ ascii l.text := by
  intro h
  obtain ⟨c, hc, heq⟩ := List.mem_map.mp h
  exact toUInt8_ne_cr (l.printable c hc) heq

theorem joinPair_cons_ne {l : Bytes} (ls : List Bytes) (hne : l ≠ []) (h : (13 : UInt8) ∉ l) :
    ∃ b rest, joinPair 13 10 (l :: ls) = b :: rest ∧ b ≠ 13 := by
  obtain ⟨b, l, rfl⟩ := exists_cons_of_ne_nil hne
  have hb : b ≠ 13 := fun heq => h (heq ▸ mem_cons_self)
  cases ls with
  | nil => exact ⟨b, l, rfl, hb⟩
  | cons l' ls => exact ⟨b, l ++ 13 :: 10 :: joinPair 13 10 (l' :: ls), rfl, hb⟩

/-- **The head ends behind its last line.** -/
theorem splitHead_joinPair {ls : List Bytes} (hne : ls ≠ []) (h : ∀ l ∈ ls, l ≠ [] ∧ (13 : UInt8) ∉ l) (rest : Bytes) :
    splitHead (joinPair 13 10 ls ++ (terminator ++ rest)) = some (joinPair 13 10 ls, rest) := by
  induction ls with
  | nil => exact absurd rfl hne
  | cons l ls ih =>
    have hl := h l mem_cons_self
    cases ls with
    | nil =>
      rw [joinPair, splitHead_line hl.2]
      show some (l ++ [], rest) = some (l, rest)
      rw [append_nil]
    | cons l' ls =>
      have hl' := h l' (mem_cons_of_mem _ mem_cons_self)
      obtain ⟨b, tail, htail, hb⟩ := joinPair_cons_ne ls hl'.1 hl'.2
      have hnext := ih (cons_ne_nil _ _) fun x hx => h x (mem_cons_of_mem _ hx)
      rw [htail, cons_append] at hnext
      rw [joinPair, append_assoc, splitHead_line hl.2, htail]
      show Option.map _ (splitHead (13 :: 10 :: b :: (tail ++ (terminator ++ rest)))) = _
      rw [splitHead_break hb, hnext]
      rfl

theorem ascii_headText : ∀ ls : List Line, ascii (headText ls) = joinPair 13 10 (ls.map fun l => ascii l.text)
  | [] => rfl
  | [_] => rfl
  | l :: l' :: ls => by
    have hrest := ascii_headText (l' :: ls)
    rw [headText, ascii, map_append, map_cons, map_cons, ← ascii, ← ascii, hrest]
    rfl

theorem splitHead_headBytes (l : Line) (ls : List Line) :
    splitHead (headBytes (l :: ls)) = some (ascii (headText (l :: ls)), []) := by
  have hlines : ∀ b ∈ (l :: ls).map fun l => ascii l.text, b ≠ [] ∧ (13 : UInt8) ∉ b := by
    intro b hb
    obtain ⟨l', -, rfl⟩ := List.mem_map.mp hb
    exact ⟨mt List.map_eq_nil_iff.mp l'.ne, l'.ascii_cr⟩
  rw [headBytes, ascii_headText, ← append_nil terminator]
  exact splitHead_joinPair (cons_ne_nil _ _) hlines []

/-! ### Reading the lines -/

theorem Line.lineFeed (l : Line) : '\n' ∉ l.text := by
  intro h
  exact absurd (l.printable _ h).1 (by decide)

theorem lines_go_cons {c : Char} (h : '\n' ≠ c) (acc cs : Text) :
    lines.go acc (c :: cs) = lines.go (c :: acc) cs := by
  exact if_neg (Ne.symm h)

variable {line : Text}

theorem lines_go_end (h : '\n' ∉ line) : ∀ acc : Text, acc.reverse ++ line ≠ [] →
    lines.go acc line = [acc.reverse ++ line] := by
  induction line with
  | nil =>
    intro acc hne
    rw [append_nil] at hne ⊢
    rw [lines.go, if_neg fun hacc => hne (by rw [hacc]; rfl)]
  | cons c line ih =>
    intro acc hne
    rw [mem_cons, not_or] at h
    have hcons : (c :: acc).reverse ++ line = acc.reverse ++ c :: line := by
      rw [reverse_cons, append_assoc]
      rfl
    rw [lines_go_cons h.1, ih h.2 (c :: acc) (by rw [hcons]; exact hne), hcons]

theorem lines_go_break (h : '\n' ∉ line) (rest : Text) : ∀ acc : Text,
    lines.go acc (line ++ '\r' :: '\n' :: rest) = (acc.reverse ++ line) :: lines rest := by
  induction line with
  | nil =>
    intro acc
    rw [append_nil]
    rfl
  | cons c line ih =>
    intro acc
    rw [mem_cons, not_or] at h
    rw [cons_append, lines_go_cons h.1, ih h.2, reverse_cons, append_assoc]
    rfl

theorem lines_headText (l : Line) (ls : List Line) :
    lines (headText (l :: ls)) = (l :: ls).map Line.text := by
  induction ls generalizing l with
  | nil => exact lines_go_end l.lineFeed [] l.ne
  | cons l' ls ih =>
    rw [headText, lines, lines_go_break l.lineFeed, ih]
    rfl

/-- **The lines are read back.** -/
theorem parseHead_headText (base64 : Base64) (config : HttpUpgradeConfig) (l : Line) (ls : List Line) :
    parseHead base64 config (ascii (headText (l :: ls))) = parseLines base64 config ((l :: ls).map Line.text) := by
  unfold parseHead
  rw [fromUTF8_ascii (headText_ascii _)]
  show parseLines base64 config (lines (String.ofList _).toList) = _
  rw [String.toList_ofList, lines_headText]

/-! ### Lines that are not looked at -/

theorem mem_of_mem_trim {c : Char} {s : Text} (h : c ∈ trim s) : c ∈ s := by
  rw [trim, mem_reverse] at h
  have := (dropWhile_sublist _).mem h
  rw [mem_reverse] at this
  exact (dropWhile_sublist _).mem this

theorem splitOnce_none {sep : Char} {s : Text} (h : sep ∉ s) : splitOnce sep s = none := by
  have hdrop : s.dropWhile (· ≠ sep) = [] := by
    induction s with
    | nil => rfl
    | cons c s ih =>
      rw [mem_cons, not_or] at h
      have hc : decide (c ≠ sep) = true := decide_eq_true (Ne.symm h.1)
      rw [dropWhile_cons, if_pos hc, ih h.2]
  rw [splitOnce, hdrop]

theorem Headers.line_skip (name : Option Text) (h : Headers) (hline : ':' ∉ line) :
    h.line name line = h := by
  unfold Headers.line
  simp only [splitOnce_none fun hc => hline (mem_of_mem_trim hc), ite_self]

theorem parseLines_skip (base64 : Base64) (config : HttpUpgradeConfig) (requestLine : Text) (ls : List Text) (hline : ':' ∉ line) :
    parseLines base64 config (requestLine :: (ls ++ [line])) = parseLines base64 config (requestLine :: ls) := by
  simp only [parseLines, foldl_append, foldl_cons, foldl_nil, Headers.line_skip _ _ hline]

end Wrongsv.L1.HttpUpgradeHead
