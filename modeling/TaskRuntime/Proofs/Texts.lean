import TaskRuntime.DelayServer.Connection

/-!
# Request and answer texts

What a client writes and what the delay server reads belong together, and so do what the server
writes and what its answer is to be read as. Both hold for messages of any bytes, as long as there
is no space and no blank line among them, which the texts use as marks themselves.

* A request for `DelayServer.path delay message` is read as this delay and this message
  (`DelayServer.ofHead_request`), and its head is complete with its last byte and not before
  (`DelayServer.eq_of_isHead`).
* An answer has its status line and the length of the message first, and what follows its first
  blank line is the message (`DelayServer.tells_success`).

That a mark occurs nowhere else is shown piece by piece: a byte that is not in the mark cuts a text
into two parts that can be searched apart (`Bytes.infix_append_cons_iff`).
-/

namespace TaskRuntime

/-! ### Numerals -/

namespace Numeral

theorem toNat_digit {n : Nat} (h : n < 10) : (digit n).toNat = 48 + n := by
  simp [digit]
  omega

theorem isDigit_digit {n : Nat} (h : n < 10) : isDigit (digit n) = true := by
  have hn := toNat_digit h
  rw [isDigit, Bool.and_eq_true, decide_eq_true_eq, decide_eq_true_eq, UInt8.le_iff_toNat_le,
    UInt8.le_iff_toNat_le, hn]
  exact ⟨Nat.le_add_right _ _, show 48 + n ≤ 57 by omega⟩

theorem ofNat_ne_nil (n : Nat) : ofNat n ≠ [] := by
  rw [ofNat]
  split
  · exact List.cons_ne_nil _ _
  · exact List.append_ne_nil_of_right_ne_nil _ (List.cons_ne_nil _ _)

/-- A number is written in digits. -/
theorem isDigit_of_mem_ofNat {n : Nat} {b : UInt8} (hb : b ∈ ofNat n) : isDigit b = true := by
  induction n using ofNat.induct with
  | case1 n h =>
    rw [ofNat, if_pos h, List.mem_singleton] at hb
    exact hb ▸ isDigit_digit h
  | case2 n h ih =>
    rw [ofNat, if_neg h, List.mem_append, List.mem_singleton] at hb
    rcases hb with hb | rfl
    · exact ih hb
    · exact isDigit_digit (Nat.mod_lt _ (by decide))

theorem value_concat (digits : Bytes) (d : UInt8) :
    value (digits ++ [d]) = 10 * value digits + (d.toNat - 48) := by
  rw [value, value, List.foldl_append]
  rfl

/-- The digits of a number denote it. -/
theorem value_ofNat (n : Nat) : value (ofNat n) = n := by
  induction n using ofNat.induct with
  | case1 n h =>
    rw [ofNat, if_pos h]
    show 10 * 0 + ((digit n).toNat - 48) = n
    rw [toNat_digit h]
    omega
  | case2 n h ih =>
    rw [ofNat, if_neg h, value_concat, ih, toNat_digit (Nat.mod_lt _ (by decide))]
    omega

/-- A text of digits is read in full. -/
theorem read?_of_digits {s : Bytes} (hs : s ≠ []) (hd : ∀ b ∈ s, isDigit b = true) :
    read? s = some ((value s : Int), ([] : Bytes)) := by
  obtain ⟨b, rest, rfl⟩ := List.exists_cons_of_ne_nil hs
  have hb : 48 ≤ b.toNat ∧ b.toNat ≤ 57 := by
    have h := hd b List.mem_cons_self
    rw [isDigit, Bool.and_eq_true, decide_eq_true_eq, decide_eq_true_eq, UInt8.le_iff_toNat_le,
      UInt8.le_iff_toNat_le] at h
    exact h
  have hblank : isBlank b = false := by
    rw [isBlank, Bool.or_eq_false_iff, Bool.and_eq_false_iff, beq_eq_false_iff_ne,
      decide_eq_false_iff_not, decide_eq_false_iff_not, UInt8.le_iff_toNat_le,
      UInt8.le_iff_toNat_le]
    refine ⟨?_, .inr (show ¬b.toNat ≤ 13 by omega)⟩
    rintro rfl
    exact absurd hb.1 (by decide)
  have hsign : splitSign (b :: rest) = (false, b :: rest) := by
    rw [splitSign]
    · rintro _ ⟨⟩
      exact absurd hb.1 (by decide)
    · rintro _ ⟨⟩
      exact absurd hb.1 (by decide)
  have htake : (b :: rest ++ []).takeWhile isDigit = b :: rest ++ [].takeWhile isDigit :=
    List.takeWhile_append_of_pos hd
  have hdrop : (b :: rest ++ []).dropWhile isDigit = [].dropWhile isDigit :=
    List.dropWhile_append_of_pos hd
  rw [List.append_nil, List.takeWhile_nil, List.append_nil] at htake
  rw [List.append_nil, List.dropWhile_nil] at hdrop
  rw [read?, List.dropWhile_cons_of_neg (by simp [hblank]), hsign]
  dsimp only
  rw [htake, hdrop]
  rfl

/-- A number is read as what it was written for. -/
theorem read?_ofNat (n : Nat) : read? (ofNat n) = some ((n : Int), ([] : Bytes)) := by
  rw [read?_of_digits (ofNat_ne_nil n) fun _ ↦ isDigit_of_mem_ofNat, value_ofNat]

/-- A byte that is no digit is in no number. -/
theorem notMem_ofNat {b : UInt8} (hb : isDigit b = false) (n : Nat) : b ∉ ofNat n := fun h ↦ by
  cases hb.symm.trans (isDigit_of_mem_ofNat h)

end Numeral

/-! ### Searching in parts -/

namespace Bytes

variable {pattern x y : Bytes} {b : UInt8}

/-- **A byte that is not in the pattern** cuts a text into two parts. -/
theorem infix_append_cons_iff (hb : b ∉ pattern) :
    pattern <:+: x ++ b :: y ↔ pattern <:+: x ∨ pattern <:+: y := by
  constructor
  · rintro ⟨s, t, h⟩
    rcases List.append_eq_append_iff.1 h with ⟨u, rfl, -⟩ | ⟨u, hu, hy⟩
    · exact .inl ⟨s, u, rfl⟩
    cases u with
    | nil => exact .inl ⟨s, [], by simpa using hu⟩
    | cons c u =>
      obtain ⟨rfl, rfl⟩ := List.cons.inj hy
      -- The byte lies before the pattern, since it is not in it.
      rcases List.append_eq_append_iff.1 hu with ⟨v, -, hp⟩ | ⟨v, -, hv⟩
      · exact absurd (hp ▸ List.mem_append_right _ List.mem_cons_self) hb
      · cases v with
        | nil =>
          rw [List.nil_append] at hv
          exact absurd (hv ▸ List.mem_cons_self) hb
        | cons c v =>
          obtain ⟨rfl, rfl⟩ := List.cons.inj hv
          exact .inr ⟨v, t, rfl⟩
  · rintro (⟨s, t, rfl⟩ | ⟨s, t, rfl⟩)
    · exact ⟨s, t ++ b :: y, by simp⟩
    · exact ⟨x ++ b :: s, t, by simp⟩

/-- Bytes that are not in the pattern can be left out at the front. -/
theorem infix_of_append (hp : pattern ≠ []) (hx : ∀ b ∈ x, b ∉ pattern)
    (h : pattern <:+: x ++ y) : pattern <:+: y := by
  induction x with
  | nil => exact h
  | cons b x ih =>
    rw [List.forall_mem_cons] at hx
    rcases (infix_append_cons_iff (x := []) hx.1).1 h with h | h
    · exact absurd (List.infix_nil.1 h) hp
    · exact ih hx.2 h

/-- A proper prefix is a prefix of all but the last byte. -/
theorem prefix_dropLast (h : x <+: y) (hne : x ≠ y) : x <+: y.dropLast := by
  obtain ⟨t, rfl⟩ := h
  have ht : t ≠ [] := by
    rintro rfl
    exact hne (List.append_nil x).symm
  rw [List.dropLast_append_of_ne_nil ht]
  exact List.prefix_append _ _

end Bytes

/-! ### Blank lines -/

namespace Http

/-- What follows the first blank line of a text. -/
def body? : Bytes → Option Bytes
  | [] => none
  | b :: rest =>
    if blankLine.isPrefixOf (b :: rest) then some ((b :: rest).drop blankLine.length)
    else body? rest

/-- A head that holds no blank line, also not with the beginning of the one that ends it, ends with
the first one. -/
theorem body?_append {head : Bytes} (message : Bytes)
    (h : ¬blankLine <:+: (head ++ blankLine).dropLast) :
    body? (head ++ blankLine ++ message) = some message := by
  induction head with
  | nil => rfl
  | cons b head ih =>
    have hlast : (b :: head ++ blankLine).dropLast = b :: (head ++ blankLine).dropLast := by
      rw [List.cons_append, List.dropLast_cons_of_ne_nil]
      exact List.append_ne_nil_of_right_ne_nil _ (by decide)
    rw [hlast] at h
    have hnot : ¬blankLine.isPrefixOf (b :: (head ++ blankLine ++ message)) = true := by
      rw [List.isPrefixOf_iff_prefix]
      intro hp
      have hlong : b :: (head ++ blankLine).dropLast <+: b :: (head ++ blankLine ++ message) :=
        (List.prefix_cons_inj _).2 ((List.dropLast_prefix _).trans (List.prefix_append _ _))
      refine h (List.prefix_of_prefix_length_le hp hlong ?_).isInfix
      rw [List.length_cons, List.length_dropLast, List.length_append]
      exact Nat.succ_le_succ (Nat.le_trans (show 3 ≤ 4 - 1 by decide) (by
        rw [Nat.add_sub_assoc (by decide)]
        exact Nat.le_add_left _ _))
    rw [List.cons_append, List.cons_append, body?, if_neg hnot]
    exact ih fun hi ↦ h (hi.trans (List.suffix_cons _ _).isInfix)

/-- All of a request after its path. -/
def afterPath : Bytes :=
  Bytes.utf8 "HTTP/1.1\r\nHost: localhost\r\nConnection: close\r\n\r\n"

/-- The path of a request stands between two spaces. -/
theorem getRequest_eq (path : Bytes) :
    getRequest path = Bytes.utf8 "GET" ++ Bytes.space :: (path ++ Bytes.space :: afterPath) := by
  have hget : Bytes.utf8 "GET " = Bytes.utf8 "GET" ++ [Bytes.space] := by decide
  have hrest : Bytes.utf8 " HTTP/1.1" ++ (lineEnd ++ (Bytes.utf8 "Host: localhost" ++
      (lineEnd ++ (Bytes.utf8 "Connection: close" ++ blankLine)))) = Bytes.space :: afterPath := by
    decide
  simp only [getRequest, List.append_assoc, hrest, hget]
  rfl

end Http

/-! ### Requests -/

namespace DelayServer

/-- The path that asks for a message after a delay. -/
def path (delay : Int) (message : Bytes) : Bytes :=
  Bytes.slash :: (Numeral.ofInt delay ++ Bytes.slash :: message)

/-- The request for a message after a delay. -/
def request (delay : Int) (message : Bytes) : Bytes := Http.getRequest (path delay message)

/-- **What can be asked for**: a delay that an `int` holds, and a message that holds no mark, in a
request that is not too long. -/
structure Askable (delay : Int) (message : Bytes) : Prop where
  /-- The delay is not negative. -/
  nonneg : 0 ≤ delay
  /-- The delay is not too long. -/
  small : delay ≤ 2147483647
  /-- The message holds no space. -/
  space : Bytes.space ∉ message
  /-- The message holds no blank line. -/
  blank : ¬Http.blankLine <:+: message
  /-- The request fits into what is read of a head. -/
  fits : (request delay message).length ≤ headLimit

variable {delay : Int} {message : Bytes}

/-- A delay is written in digits. -/
theorem notMem_ofInt (h : 0 ≤ delay) {b : UInt8} (hb : Numeral.isDigit b = false) :
    b ∉ Numeral.ofInt delay := by
  obtain ⟨n, rfl⟩ := Int.eq_ofNat_of_zero_le h
  exact Numeral.notMem_ofNat hb n

/-- A delay is read as what it was written for. -/
theorem delayOf_ofInt (h : 0 ≤ delay) (hs : delay ≤ 2147483647) :
    delayOf (Numeral.ofInt delay) = some delay := by
  obtain ⟨n, rfl⟩ := Int.eq_ofNat_of_zero_le h
  have hzero : 0 ∉ Numeral.ofNat n := Numeral.notMem_ofNat (by decide) n
  have hne : (Numeral.ofNat n).isEmpty = false := by
    simpa using Numeral.ofNat_ne_nil n
  have hsaturate : Numeral.saturate64 n = n := by
    rw [Numeral.saturate64]
    omega
  have hwrap : Numeral.wrap32 n = n := Int.bmod_eq_of_le (by omega) (by omega)
  rw [delayOf, show Numeral.ofInt n = Numeral.ofNat n from rfl, hne]
  dsimp only
  rw [if_neg Bool.false_ne_true, Bytes.upToNul_eq_self hzero, Numeral.read?_ofNat]
  dsimp only
  rw [hsaturate, if_pos ⟨rfl, h⟩, hwrap]

/-- A path without spaces is what a request asks for. -/
theorem targetText_getRequest {p : Bytes} (hp : Bytes.space ∉ p) :
    targetText (Http.getRequest p) = some p := by
  have hfirst := Bytes.splitFirst_eq_some_iff.2
    ⟨Http.getRequest_eq p, show Bytes.space ∉ Bytes.utf8 "GET" by decide⟩
  have hsecond : Bytes.splitFirst Bytes.space (p ++ Bytes.space :: Http.afterPath) = _ :=
    Bytes.splitFirst_eq_some_iff.2 ⟨rfl, hp⟩
  rw [targetText, hfirst]
  show (Bytes.splitFirst Bytes.space (p ++ Bytes.space :: Http.afterPath) >>= _) = _
  rw [hsecond]
  rfl

/-- A request for a delay that 32 bits hold and a message without spaces is read as what it asks
for. -/
theorem ofHead_request_of_space (hn : 0 ≤ delay) (hs : delay ≤ 2147483647)
    (hm : Bytes.space ∉ message) :
    Target.ofHead (request delay message) = ⟨some delay, some message⟩ := by
  have hspace : Bytes.space ∉ path delay message := by
    simp only [path, List.mem_cons, List.mem_append, not_or]
    exact ⟨by decide, notMem_ofInt hn (by decide), by decide, hm⟩
  have hsplit : Bytes.splitFirst Bytes.slash (Numeral.ofInt delay ++ Bytes.slash :: message) =
      some (Numeral.ofInt delay, message) :=
    Bytes.splitFirst_eq_some_iff.2 ⟨rfl, notMem_ofInt hn (by decide)⟩
  rw [Target.ofHead, request, targetText_getRequest hspace, path]
  dsimp only
  rw [if_pos rfl, splitSegment, hsplit]
  exact congrArg (Target.mk · _) (delayOf_ofInt hn hs)

/-- **A request is read as what it asks for.** -/
theorem ofHead_request (h : Askable delay message) :
    Target.ofHead (request delay message) = ⟨some delay, some message⟩ :=
  ofHead_request_of_space h.nonneg h.small h.space

/-- The answer to a request is its message. -/
theorem answer_request (h : Askable delay message) :
    answer (request delay message) = success message := by
  rw [answer, Target.accepted?, ofHead_request h]
  rfl

/-- The blank line of a request is at its end. -/
theorem not_blank_dropLast (h : Askable delay message) :
    ¬Http.blankLine <:+: (request delay message).dropLast := by
  have hspace : Bytes.space ∉ Http.blankLine := by decide
  have hslash : Bytes.slash ∉ Http.blankLine := by decide
  have hafter : (request delay message).dropLast = Bytes.utf8 "GET" ++ Bytes.space ::
      (path delay message ++ Bytes.space :: Http.afterPath.dropLast) := by
    have hne : path delay message ++ Bytes.space :: Http.afterPath ≠ [] :=
      List.append_ne_nil_of_right_ne_nil _ (List.cons_ne_nil _ _)
    rw [request, Http.getRequest_eq, List.dropLast_append_of_ne_nil (List.cons_ne_nil _ _),
      List.dropLast_cons_of_ne_nil hne, List.dropLast_append_of_ne_nil (List.cons_ne_nil _ _)]
    rfl
  rw [hafter, Bytes.infix_append_cons_iff hspace, Bytes.infix_append_cons_iff hspace,
    not_or, not_or, ← Bytes.hasInfix_iff, ← Bytes.hasInfix_iff (s := Http.afterPath.dropLast)]
  refine ⟨by decide, fun hpath ↦ ?_, by decide⟩
  rcases (Bytes.infix_append_cons_iff (x := []) hslash).1 hpath with hnil | hpath
  · exact absurd (List.infix_nil.1 hnil) (by decide)
  rcases (Bytes.infix_append_cons_iff hslash).1 hpath with hdelay | hmessage
  · have hreturn : (13 : UInt8) ∈ Http.blankLine := by decide
    exact notMem_ofInt h.nonneg (by decide) (hdelay.subset hreturn)
  · exact h.blank hmessage

/-- **A head is complete** with the last byte of the request, and not before. -/
theorem eq_of_isHead (h : Askable delay message) {head : Bytes}
    (hp : head <+: request delay message) (hd : isHead head = true) :
    head = request delay message := by
  rw [isHead, Bool.or_eq_true, Bytes.hasInfix_iff, decide_eq_true_eq] at hd
  rcases hd with hblank | hlong
  · refine Classical.byContradiction fun hne ↦ not_blank_dropLast h ?_
    exact hblank.trans (Bytes.prefix_dropLast hp hne).isInfix
  · exact hp.eq_of_length_le (Nat.le_trans h.fits hlong)

theorem isHead_request (delay : Int) (message : Bytes) : isHead (request delay message) = true := by
  have hblank : Http.blankLine <:+: request delay message := by
    refine List.IsSuffix.isInfix ?_
    rw [request, Http.getRequest]
    exact List.suffix_append _ _
  rw [isHead, Bytes.hasInfix_iff.2 hblank, Bool.true_or]

/-! ### Answers -/

/-- **What an answer tells**: success, the length of a message, and the message itself. -/
structure Tells (text message : Bytes) : Prop where
  /-- It begins with the status line and the length of the message. -/
  head : Bytes.utf8 "HTTP/1.1 200 OK" ++ Http.lineEnd ++ Bytes.utf8 "content-length: " ++
    Numeral.ofNat message.length ++ Http.lineEnd <+: text
  /-- What follows its first blank line is the message. -/
  body : Http.body? text = some message

/-- What an answer says before the length of its message. -/
def beforeLength : Bytes := Bytes.utf8 "HTTP/1.1 200 OK\r\ncontent-length:"

/-- What it says after that, up to the blank line. -/
def afterLength : Bytes :=
  Bytes.utf8 "\r\nconnection: close\r\ncontent-type: text/plain; charset=utf-8"

theorem success_eq (message : Bytes) :
    success message = beforeLength ++
      Bytes.space :: (Numeral.ofNat message.length ++ afterLength) ++ Http.blankLine ++
      message := by
  have hbefore : Bytes.utf8 "HTTP/1.1 200 OK" ++ (Http.lineEnd ++ Bytes.utf8 "content-length: ") =
      beforeLength ++ [Bytes.space] := by decide
  have hafter : Http.lineEnd ++ (Bytes.utf8 "connection: close" ++ (Http.lineEnd ++
      Bytes.utf8 "content-type: text/plain; charset=utf-8")) = afterLength := by decide
  simp only [success, ← hafter, List.append_assoc]
  rw [← List.append_assoc Http.lineEnd, ← List.append_assoc (Bytes.utf8 "HTTP/1.1 200 OK"), hbefore]
  simp

/-- **A successful answer tells the message.** -/
theorem tells_success (message : Bytes) : Tells (success message) message where
  head := by
    simp only [success, List.append_assoc, List.prefix_append_right_inj]
    exact List.prefix_append _ _
  body := by
    rw [success_eq]
    refine Http.body?_append message fun hblank ↦ ?_
    have hspace : Bytes.space ∉ Http.blankLine := by decide
    have hdigits : ∀ b ∈ Numeral.ofNat message.length, b ∉ Http.blankLine := by
      have hmark : Http.blankLine.all (!Numeral.isDigit ·) = true := by decide
      intro b hb hmem
      exact Numeral.notMem_ofNat (by simpa using List.all_eq_true.1 hmark b hmem) _ hb
    rw [List.dropLast_append_of_ne_nil (by decide), List.append_assoc, List.cons_append,
      Bytes.infix_append_cons_iff hspace, List.append_assoc] at hblank
    rcases hblank with hblank | hblank
    · exact absurd (Bytes.hasInfix_iff.2 hblank) (by decide)
    · have hrest := Bytes.infix_of_append (by decide) hdigits hblank
      exact absurd (Bytes.hasInfix_iff.2 hrest) (by decide)

end DelayServer

end TaskRuntime
