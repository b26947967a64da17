import Mathlib.Data.List.Basic
import ScopeGrammar.Json.Document

/-!
# ScopeGrammar.Proofs.Json.Strings

The strings of JSON, against how they are read.

* `Quad`, `EscapeOf`, `TextOf` : what stands between the quotes of a string, and the characters it
  stands for.
* `Quotable` : what may stand between quotes at all. An escape need not name a character there.
* `StringOf` : the string that is kept of what stands between quotes, if there is one.
* `keptText_of_stringOf`, `skipString_of_stringOf` and `stringOf_of_skipString` : strings are read as
  this says.
-/

namespace ScopeGrammar

open Text (Decoded)

/-- The items of a text without strays. -/
def Text.Decoded.ofChars (cs : List Char) : List Decoded := cs.map .char

namespace Text.Decoded

@[simp] theorem ofChars_nil : ofChars [] = [] := rfl

@[simp] theorem ofChars_cons (c : Char) (cs : List Char) :
    ofChars (c :: cs) = .char c :: ofChars cs := rfl

@[simp] theorem ofChars_append (cs ds : List Char) : ofChars (cs ++ ds) = ofChars cs ++ ofChars ds :=
  List.map_append

@[simp] theorem length_ofChars (cs : List Char) : (ofChars cs).length = cs.length :=
  List.length_map _

theorem ofChars_inj {cs ds : List Char} : ofChars cs = ofChars ds ↔ cs = ds :=
  List.map_inj_right fun _ _ h => by injection h

theorem ofChars_eq_cons {cs : List Char} {d : Decoded} {rest : List Decoded} :
    ofChars cs = d :: rest ↔ ∃ c cs', cs = c :: cs' ∧ d = .char c ∧ rest = ofChars cs' := by
  rw [ofChars, List.map_eq_cons_iff]
  simp only [eq_comm, ofChars]

end Text.Decoded

namespace Json

open Text.Decoded (ofChars ofChars_eq_cons ofChars_nil ofChars_cons ofChars_append length_ofChars
  ofChars_inj)

/-! ## Steps that may fail -/

section

variable {α β : Type} {a : α} {b : β} {x : Except Fault α} {f : α → Except Fault β}

@[simp] theorem ok_bind : (Except.ok a >>= f) = f a := rfl

@[simp] theorem error_bind {fault : Fault} : (Except.error fault >>= f) = .error fault := rfl

theorem bind_eq_ok : x >>= f = .ok b ↔ ∃ a, x = .ok a ∧ f a = .ok b := by
  cases x with
  | error fault =>
    rw [error_bind]
    simp
  | ok a => simp

theorem map_eq_ok {g : α → β} : x.map g = .ok b ↔ ∃ a, x = .ok a ∧ g a = b := by
  cases x <;> simp [Except.map]

end

/-! ## Escapes -/

/-- Four hexadecimal digits and their number. -/
inductive Quad : List Char → Nat → Prop
  | intro {a b c d : Char} {i j k l : Nat} :
    Unicode.hexValue? a = some i → Unicode.hexValue? b = some j → Unicode.hexValue? c = some k →
    Unicode.hexValue? d = some l → Quad [a, b, c, d] (((i * 16 + j) * 16 + k) * 16 + l)

/-- What stands behind a backslash, and the character it names. Characters beyond 16 bits are named
by two surrogates. -/
inductive EscapeOf : Char → List Char → Prop
  | plain {c e : Char} : plainEscape? c = some e → EscapeOf e [c]
  | quad {ds : List Char} {n : Nat} : Quad ds n → isLowSurrogate n = false →
    isHighSurrogate n = false → EscapeOf (Char.ofNat n) ('u' :: ds)
  | pair {hs ls : List Char} {high low : Nat} : Quad hs high → Quad ls low →
    isHighSurrogate high = true → isLowSurrogate low = true →
    EscapeOf (Char.ofNat (0x10000 + (high - 0xd800) * 0x400 + (low - 0xdc00)))
      ('u' :: hs ++ '\\' :: 'u' :: ls)

/-- What may stand behind a backslash. -/
inductive Escape : List Char → Prop
  | plain {c e : Char} : plainEscape? c = some e → Escape [c]
  | quad {ds : List Char} {n : Nat} : Quad ds n → Escape ('u' :: ds)

theorem Quad.length_eq {ds : List Char} {n : Nat} (h : Quad ds n) : ds.length = 4 := by
  cases h
  rfl

theorem Quad.hexQuad {ds : List Char} {n : Nat} (h : Quad ds n) (rest : List Char) :
    hexQuad (ofChars (ds ++ rest)) = .ok n := by
  cases h with
  | intro ha hb hc hd => simp [Json.hexQuad, hexDigit?, ha, hb, hc, hd]

theorem quad_of_hexQuad {cs : List Char} {n : Nat} (h : hexQuad (ofChars cs) = .ok n) :
    ∃ ds rest, cs = ds ++ rest ∧ Quad ds n := by
  rw [hexQuad] at h
  split at h
  · next i j k l hmap =>
    cases h
    obtain _ | ⟨a, _ | ⟨b, _ | ⟨c, _ | ⟨d, rest⟩⟩⟩⟩ := cs
    case cons.cons.cons.cons =>
      simp [hexDigit?, Option.bind_eq_some_iff] at hmap
      obtain ⟨ha, hb, hc, hd⟩ := hmap
      exact ⟨[a, b, c, d], rest, rfl, .intro ha hb hc hd⟩
    all_goals simp [Option.bind_eq_some_iff] at hmap
  · split at h <;> cases h

theorem ne_u_of_plainEscape {c e : Char} (h : plainEscape? c = some e) : c ≠ 'u' := by
  rintro rfl
  cases h

theorem keepEscape_of_escapeOf {e : Char} {esc : List Char} (h : EscapeOf e esc)
    (rest : List Char) : keepEscape (ofChars (esc ++ rest)) = .ok (e, esc.length) := by
  cases h with
  | @plain c _ hc =>
    have hu := ne_u_of_plainEscape hc
    simp only [List.cons_append, ofChars_cons]
    rw [keepEscape, hc] <;> simp [hu]
  | @quad ds n hds hlow hhigh =>
    rw [List.cons_append, ofChars_cons, keepEscape, hds.hexQuad, ok_bind, hlow, hhigh,
      List.length_cons, hds.length_eq]
    rfl
  | @pair hs ls high low hhs hls hhigh hlow =>
    have hnotLow : isLowSurrogate high = false := by
      simp only [isHighSurrogate, Bool.and_eq_true, decide_eq_true_eq] at hhigh
      simp only [isLowSurrogate, Bool.and_eq_false_iff, decide_eq_false_iff_not]
      omega
    have hpair : lowHalf ((ofChars (hs ++ '\\' :: 'u' :: (ls ++ rest))).drop 4) = .ok low := by
      rw [ofChars_append, List.drop_left' (by simpa using hhs.length_eq), ofChars_cons,
        ofChars_cons, lowHalf, hls.hexQuad, ok_bind, if_pos hlow]
    have hlength : ('u' :: hs ++ '\\' :: 'u' :: ls).length = 11 := by
      simp [hhs.length_eq, hls.length_eq]
    rw [hlength, List.append_assoc, List.cons_append, ofChars_cons, keepEscape]
    simp only [List.cons_append] at hpair ⊢
    rw [hhs.hexQuad, ok_bind, hnotLow, hhigh, hpair]
    rfl

theorem lowHalf_eq_ok {low : Nat} {cs : List Char} (h : lowHalf (ofChars cs) = .ok low) :
    ∃ ls rest, cs = '\\' :: 'u' :: ls ++ rest ∧ Quad ls low ∧ isLowSurrogate low = true := by
  unfold lowHalf at h
  split at h
  · cases h
  · cases h
  · next after hcs =>
    obtain ⟨_, _, rfl, ⟨⟩, htail⟩ := ofChars_eq_cons.1 hcs
    obtain ⟨_, cs, rfl, ⟨⟩, rfl⟩ := ofChars_eq_cons.1 htail.symm
    obtain ⟨n, hn, hlow⟩ := bind_eq_ok.1 h
    obtain ⟨ls, rest, rfl, hls⟩ := quad_of_hexQuad hn
    split at hlow
    · next hn => cases hlow; exact ⟨ls, rest, rfl, hls, hn⟩
    · cases hlow
  · cases h

theorem escapeOf_of_keepEscape {e : Char} {width : Nat} {cs : List Char}
    (h : keepEscape (ofChars cs) = .ok (e, width)) :
    ∃ esc rest, cs = esc ++ rest ∧ esc.length = width ∧ EscapeOf e esc := by
  unfold keepEscape at h
  split at h
  · cases h
  · next after hcs =>
    obtain ⟨_, cs, rfl, ⟨⟩, rfl⟩ := ofChars_eq_cons.1 hcs
    obtain ⟨n, hn, hchar⟩ := bind_eq_ok.1 h
    obtain ⟨ds, rest, rfl, hds⟩ := quad_of_hexQuad hn
    rw [ofChars_append, List.drop_left' (by simpa using hds.length_eq)] at hchar
    split at hchar
    · cases hchar
    next hlow =>
    rw [Bool.not_eq_true] at hlow
    split at hchar
    · next hhigh =>
      obtain ⟨low, hhalf, hpair⟩ := bind_eq_ok.1 hchar
      obtain ⟨ls, rest, rfl, hls, hlow⟩ := lowHalf_eq_ok hhalf
      simp only [Except.ok.injEq, Prod.mk.injEq] at hpair
      obtain ⟨rfl, rfl⟩ := hpair
      have hlength : ('u' :: ds ++ '\\' :: 'u' :: ls).length = 11 := by
        simp [hds.length_eq, hls.length_eq]
      have hesc := EscapeOf.pair hds hls hhigh hlow
      exact ⟨_, rest, by simp, hlength, hesc⟩
    · next hhigh =>
      cases hchar
      exact ⟨'u' :: ds, rest, rfl, by simp [hds.length_eq],
        .quad hds hlow (Bool.eq_false_iff.2 hhigh)⟩
  · next c after _ hcs =>
    obtain ⟨_, cs, rfl, ⟨⟩, rfl⟩ := ofChars_eq_cons.1 hcs
    split at h
    · next e hc =>
      cases h
      exact ⟨[c], cs, rfl, rfl, .plain hc⟩
    · cases h
  · cases h

theorem skipEscape_of_escape {esc : List Char} (h : Escape esc) (rest : List Char) :
    skipEscape (ofChars (esc ++ rest)) = .ok esc.length := by
  cases h with
  | @plain c e hc =>
    have hu := ne_u_of_plainEscape hc
    simp only [List.cons_append, ofChars_cons]
    rw [skipEscape, hc] <;> simp [hu]
  | quad hds =>
    rw [List.cons_append, ofChars_cons, skipEscape, hds.hexQuad, ok_bind, List.length_cons,
      hds.length_eq]

theorem escape_of_skipEscape {width : Nat} {cs : List Char}
    (h : skipEscape (ofChars cs) = .ok width) :
    ∃ esc rest, cs = esc ++ rest ∧ esc.length = width ∧ Escape esc := by
  unfold skipEscape at h
  split at h
  · cases h
  · next after hcs =>
    obtain ⟨_, cs, rfl, ⟨⟩, rfl⟩ := ofChars_eq_cons.1 hcs
    obtain ⟨n, hn, hwidth⟩ := bind_eq_ok.1 h
    obtain ⟨ds, rest, rfl, hds⟩ := quad_of_hexQuad hn
    cases hwidth
    exact ⟨'u' :: ds, rest, rfl, by simp [hds.length_eq], .quad hds⟩
  · next c after _ hcs =>
    obtain ⟨_, cs, rfl, ⟨⟩, rfl⟩ := ofChars_eq_cons.1 hcs
    split at h
    · next hc =>
      obtain ⟨e, he⟩ := Option.isSome_iff_exists.1 hc
      cases h
      exact ⟨[c], cs, rfl, rfl, .plain he⟩
    · cases h
  · cases h

/-! ## What stands between quotes -/

/-- Between quotes the character stands for itself. -/
structure IsPlain (c : Char) : Prop where
  quote : c ≠ '"'
  backslash : c ≠ '\\'
  printed : ¬ c < ' '

/-- The characters that a text between quotes stands for. -/
inductive TextOf : List Char → List Char → Prop
  | nil : TextOf [] []
  | plain {c : Char} {cs body : List Char} : IsPlain c → TextOf cs body →
    TextOf (c :: cs) (c :: body)
  | escape {e : Char} {cs esc body : List Char} : EscapeOf e esc → TextOf cs body →
    TextOf (e :: cs) ('\\' :: esc ++ body)

/-- A text that may stand between quotes, if it need not stand for anything. -/
inductive Quotable : List Char → Prop
  | nil : Quotable []
  | plain {c : Char} {body : List Char} : IsPlain c → Quotable body → Quotable (c :: body)
  | escape {esc body : List Char} : Escape esc → Quotable body →
    Quotable ('\\' :: esc ++ body)

/-- The string that is kept of what stands between quotes. -/
inductive StringOf : Except Fault String → List Char → Prop
  | kept {cs body : List Char} : TextOf cs body → StringOf (.ok (.ofList cs)) body
  | unkept {body : List Char} : Quotable body → (∀ cs, ¬ TextOf cs body) →
    StringOf (.error .malformed) body

theorem keepStringFrom_drop (strays : Bool) (used rest : List Decoded) :
    keepStringFrom used.length strays (used ++ rest) = keepStringFrom 0 strays rest := by
  induction used with
  | nil => rfl
  | cons d used ih => exact ih

theorem skipStringFrom_drop (used rest : List Decoded) :
    skipStringFrom used.length (used ++ rest) = skipStringFrom 0 rest := by
  induction used with
  | nil => rfl
  | cons d used ih => exact ih

theorem keepString_plain {c : Char} (h : IsPlain c) (rest : List Decoded) :
    keepString (.char c :: rest) = (keepString rest).map fun p => (c :: p.1, p.2) := by
  simp only [keepString, keepStringFrom, beq_iff_eq, if_neg h.quote, if_neg h.backslash,
    if_neg h.printed]
  cases keepStringFrom 0 false rest <;> rfl

theorem keepString_escape {e : Char} {esc : List Char} (h : EscapeOf e esc) (rest : List Char) :
    keepString (ofChars ('\\' :: esc ++ rest)) =
      (keepString (ofChars rest)).map fun p => (e :: p.1, p.2) := by
  have hescape := keepEscape_of_escapeOf h rest
  have hdrop := keepStringFrom_drop false (ofChars esc) (ofChars rest)
  rw [length_ofChars, ← ofChars_append] at hdrop
  simp only [keepString, List.cons_append, ofChars_cons, keepStringFrom, hescape, ok_bind, hdrop]
  cases keepStringFrom 0 false (ofChars rest) <;> rfl

theorem skipString_plain {c : Char} (h : IsPlain c) (rest : List Decoded) :
    skipString (.char c :: rest) = skipString rest := by
  simp only [skipString, skipStringFrom, beq_iff_eq, if_neg h.quote, if_neg h.backslash,
    if_neg h.printed]

theorem skipString_escape {esc : List Char} (h : Escape esc) (rest : List Char) :
    skipString (ofChars ('\\' :: esc ++ rest)) = skipString (ofChars rest) := by
  have hescape := skipEscape_of_escape h rest
  have hdrop := skipStringFrom_drop (ofChars esc) (ofChars rest)
  rw [length_ofChars, ← ofChars_append] at hdrop
  simp only [skipString, List.cons_append, ofChars_cons, skipStringFrom, hescape, ok_bind, hdrop]
  rfl

theorem keepString_of_textOf {cs body : List Char} (h : TextOf cs body) (rest : List Char) :
    keepString (ofChars (body ++ '"' :: rest)) = .ok (cs, ofChars rest) := by
  induction h with
  | nil => rfl
  | plain hc _ ih => rw [List.cons_append, ofChars_cons, keepString_plain hc, ih]; rfl
  | escape hesc _ ih => rw [List.append_assoc, keepString_escape hesc, ih]; rfl

theorem skipString_of_quotable {body : List Char} (h : Quotable body) (rest : List Char) :
    skipString (ofChars (body ++ '"' :: rest)) = .ok (ofChars rest) := by
  induction h with
  | nil => rfl
  | plain hc _ ih => rw [List.cons_append, ofChars_cons, skipString_plain hc, ih]
  | escape hesc _ ih => rw [List.append_assoc, skipString_escape hesc, ih]

/-- The string ends, an escape starts, or the character stands for itself, if it may stand there. -/
theorem quoted_cases (c : Char) :
    c = '"' ∨ c = '\\' ∨ (c ≠ '"' ∧ c ≠ '\\' ∧ c < ' ') ∨ IsPlain c := by
  by_cases hquote : c = '"'
  · exact .inl hquote
  by_cases hbackslash : c = '\\'
  · exact .inr (.inl hbackslash)
  by_cases hprinted : c < ' '
  · exact .inr (.inr (.inl ⟨hquote, hbackslash, hprinted⟩))
  · exact .inr (.inr (.inr ⟨hquote, hbackslash, hprinted⟩))

theorem textOf_of_keepString {cs s : List Char} {after : List Decoded}
    (h : keepString (ofChars cs) = .ok (s, after)) :
    ∃ body rest, cs = body ++ '"' :: rest ∧ after = ofChars rest ∧ TextOf s body := by
  induction hn : cs.length using Nat.strongRecOn generalizing cs s after with
  | ind n ih =>
  cases cs with
  | nil => cases h
  | cons c cs =>
    obtain rfl | rfl | ⟨hquote, hbackslash, hc⟩ | hc := quoted_cases c
    · cases h
      exact ⟨[], cs, rfl, rfl, .nil⟩
    · obtain ⟨⟨e, width⟩, hescape, _⟩ := bind_eq_ok.1 h
      obtain ⟨esc, more, rfl, -, hesc⟩ := escapeOf_of_keepEscape hescape
      rw [← List.cons_append, keepString_escape hesc] at h
      obtain ⟨⟨s', after'⟩, hrest, heq⟩ := map_eq_ok.1 h
      cases heq
      have hlt : more.length < n := by simp at hn; omega
      obtain ⟨body, rest, rfl, hafter, hbody⟩ := ih _ hlt hrest rfl
      exact ⟨'\\' :: esc ++ body, rest, by simp, hafter, .escape hesc hbody⟩
    · simp [keepString, keepStringFrom, hquote, hbackslash, hc] at h
    · rw [ofChars_cons, keepString_plain hc] at h
      obtain ⟨⟨s', after'⟩, hrest, heq⟩ := map_eq_ok.1 h
      cases heq
      have hlt : cs.length < n := by simp at hn; omega
      obtain ⟨body, rest, rfl, hafter, hbody⟩ := ih _ hlt hrest rfl
      exact ⟨c :: body, rest, rfl, hafter, .plain hc hbody⟩

theorem quotable_of_skipString {cs : List Char} {after : List Decoded}
    (h : skipString (ofChars cs) = .ok after) :
    ∃ body rest, cs = body ++ '"' :: rest ∧ after = ofChars rest ∧ Quotable body := by
  induction hn : cs.length using Nat.strongRecOn generalizing cs with
  | ind n ih =>
  cases cs with
  | nil => cases h
  | cons c cs =>
    obtain rfl | rfl | ⟨hquote, hbackslash, hc⟩ | hc := quoted_cases c
    · cases h
      exact ⟨[], cs, rfl, rfl, .nil⟩
    · obtain ⟨width, hescape, _⟩ := bind_eq_ok.1 h
      obtain ⟨esc, more, rfl, -, hesc⟩ := escape_of_skipEscape hescape
      rw [← List.cons_append, skipString_escape hesc] at h
      have hlt : more.length < n := by simp at hn; omega
      obtain ⟨body, rest, rfl, hafter, hbody⟩ := ih _ hlt h rfl
      exact ⟨'\\' :: esc ++ body, rest, by simp, hafter, .escape hesc hbody⟩
    · simp [skipString, skipStringFrom, hquote, hbackslash, hc] at h
    · rw [ofChars_cons, skipString_plain hc] at h
      have hlt : cs.length < n := by simp at hn; omega
      obtain ⟨body, rest, rfl, hafter, hbody⟩ := ih _ hlt h rfl
      exact ⟨c :: body, rest, rfl, hafter, .plain hc hbody⟩

theorem EscapeOf.quotable_append {e : Char} {esc body : List Char} (h : EscapeOf e esc)
    (hbody : Quotable body) : Quotable ('\\' :: esc ++ body) := by
  cases h with
  | plain hc => exact .escape (.plain hc) hbody
  | quad hds _ _ => exact .escape (.quad hds) hbody
  | pair hhs hls _ _ =>
    have h := Quotable.escape (.quad hhs) (.escape (.quad hls) hbody)
    simpa using h

theorem TextOf.quotable {cs body : List Char} (h : TextOf cs body) : Quotable body := by
  induction h with
  | nil => exact .nil
  | plain hc _ ih => exact .plain hc ih
  | escape hesc _ ih => exact hesc.quotable_append ih

/-- The string is kept, up to a rest, or an escape in it names no character. -/
def Decides (cs rest : List Char) : Prop :=
  (∃ s, keepString (ofChars cs) = .ok (s, ofChars rest)) ∨
    keepString (ofChars cs) = .error .malformed

theorem Decides.of_map {cs cs' rest : List Char} {e : Char} (h : Decides cs rest)
    (heq : keepString (ofChars cs') = (keepString (ofChars cs)).map fun p => (e :: p.1, p.2)) :
    Decides cs' rest := by
  obtain ⟨s, hs⟩ | herror := h
  · exact .inl ⟨e :: s, by rw [heq, hs]; rfl⟩
  · exact .inr (by rw [heq, herror]; rfl)

theorem keepString_lowSurrogate {ds : List Char} {n : Nat} (hds : Quad ds n)
    (hlow : isLowSurrogate n = true) (cs : List Char) :
    keepString (ofChars ('\\' :: 'u' :: ds ++ cs)) = .error .malformed := by
  have hquad := hds.hexQuad cs
  simp [keepString, keepStringFrom, keepEscape, -ofChars_append, hquad, hlow]

theorem keepString_highSurrogate {ds cs : List Char} {n : Nat} {f : Fault} (hds : Quad ds n)
    (hlow : isLowSurrogate n = false) (hhigh : isHighSurrogate n = true)
    (hhalf : lowHalf (ofChars cs) = .error f) :
    keepString (ofChars ('\\' :: 'u' :: ds ++ cs)) = .error f := by
  have hquad := hds.hexQuad cs
  have hdrop : (ofChars (ds ++ cs)).drop 4 = ofChars cs := by
    rw [ofChars_append, List.drop_left' (by simpa using hds.length_eq)]
  simp only [keepString, List.cons_append, ofChars_cons, keepStringFrom, keepEscape, hquad, ok_bind,
    hlow, hhigh, hdrop, hhalf]
  rfl

/-- The second half of a pair has to follow at once. -/
theorem lowHalf_of_quotable {body : List Char} (h : Quotable body) (rest : List Char) :
    (∃ ls low body', body = '\\' :: 'u' :: ls ++ body' ∧ Quad ls low ∧
      isLowSurrogate low = true ∧ Quotable body') ∨
    lowHalf (ofChars (body ++ '"' :: rest)) = .error .malformed := by
  cases h with
  | nil => exact .inr rfl
  | plain hc _ =>
    refine .inr ?_
    rw [List.cons_append, ofChars_cons, lowHalf] <;> simp [hc.backslash]
  | escape hesc hbody =>
    cases hesc with
    | plain hc =>
      refine .inr ?_
      have hu := ne_u_of_plainEscape hc
      simp only [List.cons_append, ofChars_cons]
      rw [lowHalf] <;> simp [hu]
    | @quad ls low hls =>
      cases hlow : isLowSurrogate low with
      | true => exact .inl ⟨ls, low, _, rfl, hls, hlow, hbody⟩
      | false =>
        refine .inr ?_
        simp only [List.cons_append, List.append_assoc, ofChars_cons]
        rw [lowHalf, hls.hexQuad, ok_bind, hlow]
        rfl

theorem decides_of_quotable {body : List Char} (h : Quotable body) (rest : List Char) :
    Decides (body ++ '"' :: rest) rest := by
  induction hn : body.length using Nat.strongRecOn generalizing body with
  | ind n ih =>
  cases h with
  | nil => exact .inl ⟨[], rfl⟩
  | @plain c body hc hbody =>
    have hlt : body.length < n := by simp at hn; omega
    exact (ih _ hlt hbody rfl).of_map (keepString_plain hc _)
  | @escape esc body hesc hbody =>
    have hlt : body.length < n := by simp at hn; omega
    have hrest := ih _ hlt hbody rfl
    rw [List.append_assoc]
    cases hesc with
    | plain hc => exact hrest.of_map (keepString_escape (.plain hc) _)
    | @quad ds m hds =>
      cases hlow : isLowSurrogate m with
      | true => exact .inr (keepString_lowSurrogate hds hlow _)
      | false =>
      cases hhigh : isHighSurrogate m with
      | false => exact hrest.of_map (keepString_escape (.quad hds hlow hhigh) _)
      | true =>
        obtain ⟨ls, low, body, rfl, hls, hlow, hbody⟩ | herror := lowHalf_of_quotable hbody rest
        · have hlt : body.length < n := by simp at hn; omega
          have hpair := keepString_escape (.pair hds hls hhigh hlow) (body ++ '"' :: rest)
          refine (ih _ hlt hbody rfl).of_map (Eq.trans ?_ hpair)
          simp
        · exact .inr (keepString_highSurrogate hds hlow hhigh herror)

/-! ## Strings as they are read -/

theorem keptText_of_stringOf {kept : Except Fault String} {body : List Char}
    (h : StringOf kept body) (rest : List Char) :
    keptText (ofChars (body ++ '"' :: rest)) = kept := by
  rw [keptText]
  cases h with
  | kept hbody =>
    rw [keepString_of_textOf hbody]
    rfl
  | unkept hbody hnone =>
    obtain ⟨s, hs⟩ | herror := decides_of_quotable hbody rest
    · obtain ⟨body', rest', heq, hafter, hbody'⟩ := textOf_of_keepString hs
      rw [← ofChars_inj.1 hafter, List.append_left_inj] at heq
      exact absurd (heq ▸ hbody') (hnone s)
    · rw [herror]
      rfl

theorem StringOf.quotable {kept : Except Fault String} {body : List Char}
    (h : StringOf kept body) : Quotable body := by
  cases h with
  | kept hbody => exact hbody.quotable
  | unkept hbody _ => exact hbody

theorem skipString_of_stringOf {kept : Except Fault String} {body : List Char}
    (h : StringOf kept body) (rest : List Char) :
    skipString (ofChars (body ++ '"' :: rest)) = .ok (ofChars rest) :=
  skipString_of_quotable h.quotable rest

theorem stringOf_of_skipString {cs : List Char} {after : List Decoded}
    (h : skipString (ofChars cs) = .ok after) :
    ∃ body rest, cs = body ++ '"' :: rest ∧ after = ofChars rest ∧
      StringOf (keptText (ofChars cs)) body := by
  obtain ⟨body, rest, rfl, hafter, hbody⟩ := quotable_of_skipString h
  refine ⟨body, rest, rfl, hafter, ?_⟩
  by_cases hkept : ∃ s, TextOf s body
  · obtain ⟨s, hs⟩ := hkept
    rw [keptText_of_stringOf (.kept hs)]
    exact .kept hs
  · have hnone : ∀ s, ¬ TextOf s body := fun s hs => hkept ⟨s, hs⟩
    rw [keptText_of_stringOf (.unkept hbody hnone)]
    exact .unkept hbody hnone

end Json

end ScopeGrammar
