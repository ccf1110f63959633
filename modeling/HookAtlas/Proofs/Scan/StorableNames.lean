/-
# The names that a scan extracts can be stored

A name is the value of a literal, and the only code points that decoding adds to those of the source are named by
escapes.  No escape names a surrogate, so a source without surrogates yields names without surrogates, and nothing
is left to do for the scrubbing that every text of a record goes through.

Sources with surrogates do not occur in a scan, since what is decoded from a file is well-formed.
-/

import HookAtlas.Proofs.Hook.Payload
import HookAtlas.Proofs.Hook.Reading
import HookAtlas.Proofs.Php.CallWindow
import HookAtlas.Proofs.Php.Escapes
import HookAtlas.Proofs.Php.Lossless
import HookAtlas.Proofs.Text.Scrub
import HookAtlas.Scan.SourceFile

namespace HookAtlas

namespace Text

theorem isScalar_of_subset {s t : Text} (hsubset : s ⊆ t) (hscalar : t.isScalar = true) :
    s.isScalar = true :=
  (isScalar_iff s).mpr fun c hmem => (isScalar_iff t).mp hscalar c (hsubset hmem)

theorem isScalar_cons {c : CodePoint} {t : Text} :
    Text.isScalar (c :: t) = true ↔ c.isSurrogate = false ∧ t.isScalar = true := by
  rw [isScalar, List.all_cons, Bool.and_eq_true, Bool.not_eq_true', isScalar]

end Text

namespace Php

/-! ## The value of a literal -/

/-- Decoding a single-quoted literal only leaves out backslashes. -/
theorem decodeSingle_subset (body : Text) : decodeSingle body ⊆ body := by
  fun_induction decodeSingle body with
  | case1 => exact List.Subset.refl []
  | case2 => exact List.Subset.refl _
  | case3 d rest _ ih =>
      exact List.Subset.trans (List.cons_subset_cons d ih) (List.subset_cons_self _ _)
  | case4 d rest _ ih => exact List.cons_subset_cons _ ih
  | case5 c cs _ ih => exact List.cons_subset_cons c ih

/-- What an escape stands for can be stored if the escape itself can. -/
theorem isScalar_namedText {written : Text} (hwritten : written.isScalar = true) (number : Nat) :
    (namedText written number).isScalar = true := by
  rw [namedText]
  split
  · next hscalar =>
      refine Text.isScalar_cons.mpr ⟨CodePoint.isSurrogate_ofNat ?_, rfl⟩
      rw [CodePoint.IsScalarValue] at hscalar
      omega
  · exact Text.isScalar_cons.mpr ⟨by decide, hwritten⟩

theorem isSurrogate_of_simpleEscape? {mark meant : CodePoint}
    (hsimple : simpleEscape? mark = some meant) : meant.isSurrogate = false := by
  by_cases hitself : mark = '\\' ∨ mark = '$' ∨ mark = '"'
  · have hmeant : simpleEscape? mark = some mark := by
      rcases hitself with rfl | rfl | rfl
      all_goals decide
    rw [← Option.some.inj (hmeant.symm.trans hsimple)]
    rcases hitself with rfl | rfl | rfl
    all_goals decide
  · simp only [simpleEscape?, hitself, if_false] at hsimple
    repeat' split at hsimple
    all_goals
      cases hsimple
      all_goals decide

/-- The value of an escape can be stored if its text can. -/
theorem isScalar_of_doubleEscape? {cs value : Text} {used : Nat} (hscalar : cs.isScalar = true)
    (hread : doubleEscape? cs = some (value, used)) : value.isScalar = true := by
  obtain ⟨written, rest, rfl, -, hkind⟩ := doubleEscape?_eq_some hread
  rw [Text.isScalar_append, Bool.and_eq_true] at hscalar
  rcases hkind with ⟨mark, meant, rfl, hsimple, rfl⟩ | ⟨number, -, rfl⟩
  · exact Text.isScalar_cons.mpr ⟨isSurrogate_of_simpleEscape? hsimple, rfl⟩
  · exact isScalar_namedText hscalar.1 number

theorem isScalar_decodeDouble {body : Text} (hscalar : body.isScalar = true) :
    (decodeDouble body).isScalar = true := by
  fun_induction decodeDouble body with
  | case1 => rfl
  | case2 cs value used hread ih =>
      have hrest := (Text.isScalar_cons.mp hscalar).2
      rw [Text.isScalar_append, Bool.and_eq_true]
      exact ⟨isScalar_of_doubleEscape? hrest hread,
        ih (Text.isScalar_of_subset (List.drop_subset used cs) hrest)⟩
  | case3 cs hread ih =>
      obtain ⟨hfirst, hrest⟩ := Text.isScalar_cons.mp hscalar
      exact Text.isScalar_cons.mpr ⟨hfirst, ih hrest⟩
  | case4 c cs hplain ih =>
      obtain ⟨hfirst, hrest⟩ := Text.isScalar_cons.mp hscalar
      exact Text.isScalar_cons.mpr ⟨hfirst, ih hrest⟩

/-- The value of a well-formed literal is well-formed, whatever the literal is. -/
theorem isScalar_literalValue {literal : Text} (hscalar : literal.isScalar = true) :
    (literalValue literal).isScalar = true := by
  cases literal with
  | nil => rfl
  | cons quote rest =>
      have hbody : Text.isScalar rest.dropLast = true :=
        Text.isScalar_of_subset (List.dropLast_subset rest) (Text.isScalar_cons.mp hscalar).2
      rw [literalValue]
      split
      · exact hscalar
      split
      · exact Text.isScalar_of_subset (decodeSingle_subset _) hbody
      split
      · exact isScalar_decodeDouble hbody
      · exact hscalar

/-! ## The names in a source -/

theorem text_subset_of_mem_tokenize {source : Text} {token : Token}
    (hmem : token ∈ tokenize source) : token.text ⊆ source := by
  obtain ⟨rest, hsource, -⟩ := lexFrom_stopped (startMode source) 1 source
  intro c hc
  rw [hsource]
  exact List.mem_append_left _ (List.mem_flatMap_of_mem hmem hc)

theorem exists_mem_of_windowArgument? {contents : List (TokenKind × Text)} {name : Text}
    (hargument : windowArgument? contents = some name) :
    ∃ content ∈ contents, name = literalValue content.2 := by
  match contents with
  | paren :: argument :: mark :: rest =>
      rw [windowArgument?] at hargument
      split at hargument
      · cases hargument
        exact ⟨argument, List.mem_cons_of_mem _ List.mem_cons_self, rfl⟩
      · cases hargument

/-- The name of a call site is the value of one of the tokens. -/
theorem exists_literal_of_mem_callSites {callees : Callees} {tokens : List Token} {site : CallSite}
    (hmem : site ∈ callSites callees tokens) :
    ∃ token ∈ tokens, site.hookName = literalValue token.text := by
  rw [callSites_eq_windowSites, windowSites, List.mem_filterMap] at hmem
  obtain ⟨window, hwindow, hsite⟩ := hmem
  have hsubset : window ⊆ tokens :=
    List.Subset.trans ((List.mem_tails _ _).mp hwindow).subset (List.filter_subset_self _)
  cases window with
  | nil => cases hsite
  | cons callee window =>
      rw [windowSite?] at hsite
      split at hsite
      · next hargument =>
          cases hsite
          obtain ⟨_, hcontent, hname⟩ := exists_mem_of_windowArgument? hargument
          obtain ⟨token, htoken, rfl⟩ := List.mem_map.mp hcontent
          exact ⟨token, hsubset (List.mem_cons_of_mem callee htoken), hname⟩
      · cases hsite

/-- The names in a well-formed source are well-formed. -/
theorem isScalar_hookName {callees : Callees} {source : Text} (hscalar : source.isScalar = true)
    {site : CallSite} (hmem : site ∈ callSites callees (tokenize source)) :
    site.hookName.isScalar = true := by
  obtain ⟨token, htoken, hname⟩ := exists_literal_of_mem_callSites hmem
  rw [hname]
  exact isScalar_literalValue
    (Text.isScalar_of_subset (text_subset_of_mem_tokenize htoken) hscalar)

/-! ## Escapes in a literal -/

/-- A body between double quotes. -/
def doubleQuoted (body : Text) : Text :=
  CodePoint.ofChar '"' :: (body ++ [CodePoint.ofChar '"'])

theorem literalValue_doubleQuoted (body : Text) :
    literalValue (doubleQuoted body) = decodeDouble body := by
  rw [doubleQuoted, literalValue, if_neg, if_neg (by decide), if_pos rfl, List.dropLast_concat]
  rw [List.getLast?_concat]
  simp

/-- A numeric escape behind an even number of backslashes stands for its code point or for itself, and leaves what
is before it and behind it as it is. -/
theorem literalValue_numericEscape {front written rest : Text} {number : Nat}
    (heven : front.trailingBackslashes % 2 = 0) (hescape : NumericEscape written number rest) :
    literalValue (doubleQuoted (front ++ CodePoint.ofChar '\\' :: (written ++ rest))) =
      literalValue (doubleQuoted front) ++ namedText written number ++
        literalValue (doubleQuoted rest) := by
  simp only [literalValue_doubleQuoted]
  rw [decodeDouble_append_backslash heven, decodeDouble, if_pos rfl,
    doubleEscape?_of_numericEscape hescape]
  dsimp only
  rw [List.drop_left, List.append_assoc]

end Php

/-! ## Records -/

namespace HookRecord

/-- A name without surrogates is read as it is. -/
theorem readText_of_isScalar {t : Text} (hscalar : t.isScalar = true) :
    readText (.text t) = .ok ⟨t, hscalar⟩ :=
  congrArg Except.ok (ScalarText.ofText_text ⟨t, hscalar⟩)

theorem hookName_of_ofFields {now : Timestamp} {fields : List (Text × Json)} {record : HookRecord}
    {name : Text} (hscalar : name.isScalar = true)
    (hlookup : Json.lookupField? "hook_name" fields = some (.text name))
    (hread : ofFields now fields = .ok record) : record.hookName.text = name := by
  obtain ⟨value, hvalue, hname⟩ :=
    Validation.requiredField_cases (readFrom_of_ofFields hread).hookName
  rw [hlookup, Option.some.injEq] at hvalue
  rw [← hvalue, readText_of_isScalar hscalar, Except.ok.injEq] at hname
  rw [← hname]

end HookRecord

variable {settings : Settings} {clock : Except ClockError Timestamp} {file : Path} {source : Text}
  {records : List HookRecord}

/-- The records of a source bear the names of its call sites. -/
theorem hookNames_recordsOfSource (hscalar : source.isScalar = true)
    (hrecords : recordsOfSource settings clock file source = .ok records) :
    records.map (fun record => record.hookName.text) =
      (Php.callSites settings.callees (Php.tokenize source)).map Php.CallSite.hookName := by
  have hsites : ∀ site ∈ Php.callSites settings.callees (Php.tokenize source),
      site.hookName.scrub = site.hookName := fun site hmem =>
    Text.scrub_of_isScalar (Php.isScalar_hookName hscalar hmem)
  rw [recordsOfSource] at hrecords
  split at hrecords
  · next hnone =>
      cases hrecords
      rw [hnone]
      rfl
  · cases clock with
    | error error => cases hrecords
    | ok now =>
        cases hrecords
        rw [List.map_map]
        exact List.map_congr_left hsites

/-- The names in a source without surrogates have none, and a record that is read with such a name or made of its
call site keeps it.  In any double-quoted literal a numeric escape behind an even number of backslashes stands for
the code point of its number where a text may hold that one, and else for itself. -/
theorem extracted_names_are_kept :
    (∀ (callees : Php.Callees) (source : Text), source.isScalar = true →
      ∀ site ∈ Php.callSites callees (Php.tokenize source),
        ∃ hname : site.hookName.isScalar = true,
          HookRecord.readText (.text site.hookName) = .ok ⟨site.hookName, hname⟩ ∧
          ∀ now fields record,
            Json.lookupField? "hook_name" fields = some (.text site.hookName) →
            HookRecord.ofFields now fields = .ok record → record.hookName.text = site.hookName) ∧
    (∀ settings clock file source records, Text.isScalar source = true →
      recordsOfSource settings clock file source = .ok records →
      records.map (fun record => record.hookName.text) =
        (Php.callSites settings.callees (Php.tokenize source)).map Php.CallSite.hookName) ∧
    ∀ front written rest number, Text.trailingBackslashes front % 2 = 0 →
      Php.NumericEscape written number rest →
      Php.literalValue (Php.doubleQuoted (front ++ CodePoint.ofChar '\\' :: (written ++ rest))) =
        Php.literalValue (Php.doubleQuoted front) ++
          (if CodePoint.IsScalarValue number then [CodePoint.ofNat number]
            else CodePoint.ofChar '\\' :: written) ++
          Php.literalValue (Php.doubleQuoted rest) := by
  refine ⟨?_, ?_, ?_⟩
  · intro callees source hscalar site hmem
    have hname : site.hookName.isScalar = true := Php.isScalar_hookName hscalar hmem
    exact ⟨hname, HookRecord.readText_of_isScalar hname, fun now fields record =>
      HookRecord.hookName_of_ofFields hname⟩
  · intro settings clock file source records hscalar hrecords
    exact hookNames_recordsOfSource hscalar hrecords
  · intro front written rest number heven hescape
    exact Php.literalValue_numericEscape heven hescape

/-- The settings of a site that sets nothing. -/
def defaultSettings : Settings :=
  (Settings.ofFields []).toOption.get rfl

/-- A call whose name has a backslash, an escape that names a surrogate, and one that names a letter. -/
def surrogateSource : Text :=
  "<?php do_action(\"\\\\\\u\x7bD800\x7d\\101\");"

/-- The call. -/
def surrogateSite : Php.CallSite :=
  ⟨"do_action", "\\\\u\x7bD800\x7dA", .action, 1⟩

/-- The record of the call. -/
def surrogateRecord : HookRecord :=
  recordOfSite defaultSettings (Path.ofText "/site/a.php") .epoch surrogateSite

/-- An escape that names a surrogate keeps its text, and the name that it is a part of is stored as it is. -/
theorem extracted_names_are_kept_surrogateSource :
    surrogateSource.isScalar = true ∧
      (Php.callSites .standard (Php.tokenize surrogateSource) = [surrogateSite] ∧
        HookRecord.ofFields .epoch surrogateRecord.toFields = .ok surrogateRecord ∧
        surrogateRecord.hookName.text = surrogateSite.hookName) ∧
      (recordsOfSource defaultSettings (.ok .epoch) (Path.ofText "/site/a.php") surrogateSource =
          .ok [surrogateRecord] ∧
        [surrogateRecord].map (fun record => record.hookName.text) =
          (Php.callSites defaultSettings.callees (Php.tokenize surrogateSource)).map
            Php.CallSite.hookName) ∧
      (Php.NumericEscape "u\x7bD800\x7d" 0xD800 "\\101" ∧
        Php.literalValue (Php.doubleQuoted "\\\\\\u\x7bD800\x7d\\101") = surrogateSite.hookName) := by
  obtain ⟨hnames, hrecords, hescapes⟩ := extracted_names_are_kept
  have hscalar : surrogateSource.isScalar = true := by cbv
  have hsites : Php.callSites .standard (Php.tokenize surrogateSource) = [surrogateSite] := by cbv
  have hmem : surrogateSite ∈ Php.callSites .standard (Php.tokenize surrogateSource) := by
    rw [hsites]
    exact List.mem_singleton_self _
  have hfields : HookRecord.ofFields .epoch surrogateRecord.toFields = .ok surrogateRecord :=
    surrogateRecord.ofJson_toJson .epoch
  have hfound : recordsOfSource defaultSettings (.ok .epoch) (Path.ofText "/site/a.php")
      surrogateSource = .ok [surrogateRecord] := by
    have hcallees : defaultSettings.callees = .standard := rfl
    rw [recordsOfSource, hcallees, hsites]
    rfl
  have hescape : Php.NumericEscape "u\x7bD800\x7d" 0xD800 "\\101" :=
    @Php.NumericEscape.braced "D800" _ (by decide) (by decide)
  obtain ⟨-, -, hkept⟩ := hnames .standard surrogateSource hscalar surrogateSite hmem
  exact ⟨hscalar, ⟨hsites, hfields, hkept .epoch _ _ rfl hfields⟩,
    ⟨hfound, hrecords _ _ _ _ _ hscalar hfound⟩,
    hescape, (hescapes "\\\\" _ _ _ (by decide) hescape).trans (by cbv)⟩

end HookAtlas
