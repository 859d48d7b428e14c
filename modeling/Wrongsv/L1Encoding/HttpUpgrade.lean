import Wrongsv.Core

/-!
# The HTTP request of a WebSocket upgrade

`parse_upgrade` of websocket/upgrade.rs. The request is a GET with
headers up to the first empty line; what is behind it is handed back. Text is a
list of characters; the string functions of the standard library that the source
uses are written out first.
-/
namespace Wrongsv.L1.HttpUpgrade
open List

abbrev Text := List Char

/-! ## Strings -/

/-- `char::is_whitespace`: the Unicode property White_Space. -/
def isWhitespace (c : Char) : Bool :=
  let n := c.toNat
  (9 ≤ n && n ≤ 13) || n == 0x20 || n == 0x85 || n == 0xA0 || n == 0x1680 || (0x2000 ≤ n && n ≤ 0x200A) ||
    n == 0x2028 || n == 0x2029 || n == 0x202F || n == 0x205F || n == 0x3000

def trim (s : Text) : Text := ((s.dropWhile isWhitespace).reverse.dropWhile isWhitespace).reverse

/-- `str::lines`; the line read so far is in reverse order, and a CR in front of
the line feed belongs to the line ending. -/
def lines.go (acc : Text) : Text → List Text
  | [] => if acc = [] then [] else [acc.reverse]
  | c :: cs =>
    if c = '\n' then
      (match acc with
        | '\r' :: line => line.reverse
        | line => line.reverse) :: go [] cs
    else go (c :: acc) cs

def lines (s : Text) : List Text := lines.go [] s

/-- `str::split_whitespace`; the word read so far is in reverse order. -/
def splitWhitespace.go (acc : Text) : Text → List Text
  | [] => if acc = [] then [] else [acc.reverse]
  | c :: cs =>
    if isWhitespace c then (if acc = [] then [] else [acc.reverse]) ++ go [] cs
    else go (c :: acc) cs

def splitWhitespace (s : Text) : List Text := splitWhitespace.go [] s

/-- `s.split(sep).next()`. -/
def upTo (sep : Char) (s : Text) : Text := s.takeWhile (· ≠ sep)

/-- `str::split_once`. -/
def splitOnce (sep : Char) (s : Text) : Option (Text × Text) :=
  match s.dropWhile (· ≠ sep) with
  | [] => none
  | _ :: after => some (upTo sep s, after)

/-- `to_ascii_lowercase`. -/
def lowercase (s : Text) : Text := s.map Char.toLower

def contains (s pattern : Text) : Bool := s.tails.any (pattern.isPrefixOf ·)

/-! ## The request -/

def maxHeaderSize : Nat := 16384

structure UpgradeRequest where
  path : Text
  host : Option Text
  websocketKey : Text
  deriving DecidableEq, Repr

inductive UpgradeError where
  | notGet
  | pathMismatch (expected got : Text)
  | hostMismatch (expected got : Text)
  | headerTooLarge
  | notWebSocket
  | missingKey
  | incomplete
  | invalidRequestLine
  | badVersion (got : Text)
  deriving DecidableEq, Repr

def terminator : Bytes := [13, 10, 13, 10]

/-- What is in front of the first `\r\n\r\n`, and what is behind it. -/
def splitHead : Bytes → Option (Bytes × Bytes)
  | [] => none
  | a :: rest =>
    if terminator.isPrefixOf (a :: rest) then some ([], (a :: rest).drop 4)
    else (splitHead rest).map fun p => (a :: p.1, p.2)

/-- The headers the upgrade looks at. -/
structure Headers where
  upgrade : Bool := false
  connectionUpgrade : Bool := false
  websocketKey : Option Text := none
  version : Option Text := none
  host : Option Text := none

def Headers.line (h : Headers) (line : Text) : Headers :=
  match splitOnce ':' (trim line) with
  | none => h
  | some (key, value) =>
    let key := lowercase (trim key)
    let value := trim value
    if key = "upgrade".toList then
      { h with upgrade := h.upgrade || lowercase value == "websocket".toList }
    else if key = "connection".toList then
      { h with connectionUpgrade := h.connectionUpgrade || contains (lowercase value) "upgrade".toList }
    else if key = "sec-websocket-key".toList then { h with websocketKey := some value }
    else if key = "sec-websocket-version".toList then { h with version := some value }
    else if key = "host".toList then { h with host := some (lowercase (upTo ':' value)) }
    else h

def normalizePath (rawPath : Text) : Text :=
  match upTo '?' rawPath with
  | '/' :: path => '/' :: path
  | path => '/' :: path

def expectedPathOf (expectedPath : Text) : Text :=
  if expectedPath = [] ∨ expectedPath = ['/'] then ['/'] else expectedPath

/-- upgrade.rs:74-183: the text in front of the empty line -/
def parseHead (head : Bytes) (expectedPath : Text) (expectedHost : Option Text) :
    Except UpgradeError UpgradeRequest := do
  let some text := String.fromUTF8? ⟨head.toArray⟩ | throw .invalidRequestLine
  let requestLine :: headerLines := lines text.toList | throw .invalidRequestLine
  let method :: parts := splitWhitespace requestLine | throw .invalidRequestLine
  if method ≠ "GET".toList then throw .notGet
  let rawPath :: _version :: _ := parts | throw .invalidRequestLine
  let path := normalizePath rawPath
  let expected := expectedPathOf expectedPath
  if path ≠ expected then throw (.pathMismatch expected path)
  let h := headerLines.foldl Headers.line {}
  if !h.upgrade || !h.connectionUpgrade then throw .notWebSocket
  let some key := h.websocketKey | throw .missingKey
  if let some version := h.version then
    if version ≠ "13".toList then throw (.badVersion version)
  if let some expected := expectedHost then
    let got := h.host.getD []
    if lowercase expected ≠ lowercase got then throw (.hostMismatch expected got)
  return ⟨path, h.host, key⟩

/-- upgrade.rs:54-183 -/
def parseUpgrade (buf : Bytes) (expectedPath : Text) (expectedHost : Option Text) :
    Except UpgradeError (UpgradeRequest × Bytes) :=
  if maxHeaderSize < buf.length then .error .headerTooLarge
  else
    match splitHead buf with
    | none => .error .incomplete
    | some (head, remaining) => (parseHead head expectedPath expectedHost).map fun request => (request, remaining)

/-! ## The end of the head -/

theorem isPrefixOf_append {b : Bytes} (h : 4 ≤ b.length) (t : Bytes) :
    terminator.isPrefixOf (b ++ t) = terminator.isPrefixOf b := by
  rw [Bool.eq_iff_iff, isPrefixOf_iff_prefix, isPrefixOf_iff_prefix]
  constructor
  · intro hp
    exact prefix_of_prefix_length_le hp (prefix_append b t) h
  · intro hp
    exact hp.trans (prefix_append b t)

section
variable {b head rest : Bytes} (h : splitHead b = some (head, rest))
include h

theorem splitHead_length : 4 ≤ b.length := by
  induction b generalizing head rest with
  | nil => cases h
  | cons a b ih =>
    rw [splitHead] at h
    split at h
    · rename_i hp
      exact (List.isPrefixOf_iff_prefix.mp hp).length_le
    · obtain ⟨⟨head', rest'⟩, h', -⟩ := Option.map_eq_some_iff.mp h
      exact Nat.le_succ_of_le (ih h')

theorem splitHead_eq : b = head ++ (terminator ++ rest) := by
  induction b generalizing head rest with
  | nil => cases h
  | cons a b ih =>
    unfold splitHead at h
    split at h
    · rename_i hp
      cases h
      obtain ⟨t, ht⟩ := List.isPrefixOf_iff_prefix.mp hp
      rw [← ht]
      rfl
    · obtain ⟨p, hp, heq⟩ := Option.map_eq_some_iff.mp h
      cases heq
      rw [ih hp]
      rfl

theorem splitHead_append (t : Bytes) : splitHead (b ++ t) = some (head, rest ++ t) := by
  induction b generalizing head rest with
  | nil => cases h
  | cons a b ih =>
    have hlen := splitHead_length h
    rw [splitHead] at h
    rw [cons_append, splitHead, ← cons_append, isPrefixOf_append hlen]
    split at h
    · cases h
      rw [if_pos ‹_›, drop_append_of_le_length hlen]
    · obtain ⟨⟨head', rest'⟩, h', he⟩ := Option.map_eq_some_iff.mp h
      cases he
      rw [if_neg ‹_›, ih h']
      rfl

end

theorem splitHead_take {bytes head : Bytes} (h : splitHead bytes = some (head, [])) {k : Nat}
    (hk : k < bytes.length) : splitHead (bytes.take k) = none := by
  cases hp : splitHead (bytes.take k) with
  | none => rfl
  | some p =>
    have hwhole := splitHead_append hp (bytes.drop k)
    rw [take_append_drop, h, Option.some.injEq, Prod.mk.injEq] at hwhole
    have hnil := (List.append_eq_nil_iff.mp hwhole.2.symm).2
    exact absurd (List.drop_eq_nil_iff.mp hnil) (Nat.not_le.mpr hk)

/-! ## Requests -/

/-- A request that `parse_upgrade` accepts, with nothing behind it. -/
structure Upgrade (path : Text) (host : Option Text) where
  bytes : Bytes
  request : UpgradeRequest
  accepted : parseUpgrade bytes path host = .ok (request, [])

namespace Upgrade

variable {path : Text} {host : Option Text} (u : Upgrade path host)

theorem head : u.bytes.length ≤ maxHeaderSize ∧
    ∃ head, splitHead u.bytes = some (head, []) ∧ parseHead head path host = .ok u.request := by
  have h := u.accepted
  unfold parseUpgrade at h
  split at h
  · cases h
  rename_i hlen
  refine ⟨Nat.not_lt.mp hlen, ?_⟩
  split at h
  · cases h
  rename_i head remaining hs
  cases hp : parseHead head path host with
  | error e => rw [hp] at h; cases h
  | ok request =>
    rw [hp] at h
    cases h
    exact ⟨head, hs, hp⟩

/-- With bytes behind it, it is accepted if there is room, and they are handed back. -/
theorem parse_append (t : Bytes) : parseUpgrade (u.bytes ++ t) path host =
      if maxHeaderSize < (u.bytes ++ t).length then .error .headerTooLarge else .ok (u.request, t) := by
  obtain ⟨-, head, hs, hp⟩ := u.head
  unfold parseUpgrade
  split
  · rfl
  rw [splitHead_append hs]
  simp only [hp, nil_append]
  rfl

end Upgrade

end Wrongsv.L1.HttpUpgrade
