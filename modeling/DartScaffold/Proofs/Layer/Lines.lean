import DartScaffold.Layer.UseCase
import DartScaffold.Proofs.Dart.Import
import DartScaffold.Proofs.Dart.Literal

/-!
The lines of the layers. All names in them are plain, whatever the configuration says, so only the
values of static headers can bring a slash or a line break into a method.
-/

namespace DartScaffold.Layer

open Dart (IsClear IsCodeLine IsOneLine IsPlain isClear_append isClear_ite)

theorem isPlain_pascalCase (name : String) : IsPlain (Text.pascalCase name) :=
  Dart.isPlain_of_isAlphanum fun _ => Text.isAlphanum_of_mem_pascalCase

theorem isPlain_camelCase (name : String) : IsPlain (Text.camelCase name) :=
  Dart.isPlain_of_isAlphanum fun _ => Text.isAlphanum_of_mem_camelCase

theorem isClear_cacheStrategyCall (strategy : String) (ttl : Option Int) (keep : Option Bool) :
    IsClear (cacheStrategyCall strategy ttl keep) := by
  have hname : IsClear (Text.pascalCase strategy ++ "Strategy") :=
    isClear_append.mpr ⟨(isPlain_pascalCase strategy).isClear, by decide⟩
  have hargs : ∀ arg ∈ (ttl.map fun t => s!"ttlValue: const Duration(minutes: {t})").toList ++
      (keep.map fun k => "keepExpiredCache: " ++ if k then "true" else "false").toList,
      IsClear arg := by
    intro arg harg
    rcases List.mem_append.mp harg with harg | harg
    · obtain ⟨t, -, rfl⟩ := Option.map_eq_some_iff.mp (Option.mem_toList.mp harg)
      have hnumber : IsClear (toString t) := by
        have hnat : ∀ n : Nat, IsClear (toString n) := fun n =>
          (Dart.isPlain_of_isAlphanum fun c hc => by
            simp [Char.isAlphanum, Text.isDigit_of_mem_toString hc]).isClear
        cases t with
        | ofNat n => exact hnat n
        | negSucc n => exact isClear_append.mpr ⟨by decide, hnat (n + 1)⟩
      exact isClear_append.mpr ⟨isClear_append.mpr ⟨by decide, hnumber⟩, by decide⟩
    · obtain ⟨k, -, rfl⟩ := Option.map_eq_some_iff.mp (Option.mem_toList.mp harg)
      cases k <;> decide
  rw [cacheStrategyCall]
  refine isClear_ite (isClear_append.mpr ⟨hname, by decide⟩) ?_
  simp only [isClear_append]
  exact ⟨⟨⟨isClear_append.mp hname, by decide⟩, Dart.isClear_intercalate (by decide) hargs⟩,
    by decide⟩

namespace Context

variable (c : Context)

theorem isClear_apiClass : IsClear c.apiClass := (isPlain_pascalCase _).isClear

theorem isClear_apiMethod : IsClear c.apiMethod := (isPlain_camelCase _).isClear

theorem isClear_listOf {name : String} (h : IsClear name) (isList : Bool) :
    IsClear (listOf isList name) :=
  isClear_ite (isClear_append.mpr ⟨isClear_append.mpr ⟨by decide, h⟩, by decide⟩) h

theorem isClear_bodyClass : IsClear c.bodyClass :=
  isClear_listOf (isClear_append.mpr ⟨c.isClear_apiClass, by decide⟩) _

theorem isClear_answerClass {suffix : String} (h : IsClear suffix) :
    IsClear (c.answerClass suffix) := by
  rw [answerClass]
  cases c.api.returnData with
  | model => exact isClear_listOf (isClear_append.mpr ⟨c.isClear_apiClass, h⟩) _
  | raw => exact isClear_ite (by decide) (by decide)
  | _ =>
      dsimp only
      decide

theorem isClear_futureClass : IsClear c.futureClass :=
  isClear_ite (by decide) (by decide)

theorem isClear_eitherClass : IsClear c.eitherClass := by
  have hentity : IsClear c.entityClass := c.isClear_answerClass (by decide)
  simp +decide [eitherClass, toString, isClear_append, c.isClear_futureClass, hentity]

theorem isClear_asyncEnding : IsClear c.asyncEnding :=
  isClear_ite (by decide) (by decide)

theorem isClear_endpoint {text : String} (h : c.endpoint = .ok text) : IsClear text := by
  have hname : ∀ apps, IsClear
      s!"{Text.pascalCase c.project}Endpoints.{c.apiMethod}{Text.pascalCase apps}" := by
    intro apps
    have hproject := (isPlain_pascalCase c.project).isClear
    have happs := (isPlain_pascalCase apps).isClear
    simp +decide [toString, isClear_append, hproject, c.isClear_apiMethod, happs]
  rw [endpoint] at h
  dsimp only at h
  split at h
  · exact Except.ok.inj h ▸ hname _
  · split at h
    · contradiction
    · obtain rfl := Except.ok.inj h
      have hargs : IsClear (", ".intercalate
          (c.api.pathParams.map fun p => "body." ++ Dart.fieldName p)) := by
        refine Dart.isClear_intercalate (by decide) ?_
        intro part hpart
        obtain ⟨p, -, rfl⟩ := List.mem_map.mp hpart
        exact isClear_append.mpr ⟨by decide, (Dart.isPlain_fieldName p).isClear⟩
      simp only [isClear_append]
      exact ⟨⟨⟨hname _, by decide⟩, hargs⟩, by decide⟩

theorem isClear_signature {type name ending : String} (htype : IsClear type) (hname : IsClear name)
    (hending : IsClear ending) : ∀ line ∈ c.signature type name ending, IsClear line := by
  rw [signature]
  cases c.api.usesCache <;>
    simp +decide [toString, isClear_append, htype, hname, hending, c.isClear_bodyClass]

theorem isClear_forwarded {indent : String} (h : IsClear indent) :
    ∀ line ∈ c.forwarded indent, IsClear line := by
  rw [forwarded]
  cases c.api.usesCache <;> simp +decide [isClear_append, h]

/-! ### The call -/

/-- No static header has a line break. -/
def Unbroken (c : Context) : Prop :=
  ∀ headers ∈ c.headers, ∀ s ∈ Json.stringsOfEntries headers, IsOneLine s

/-- An argument stands in a line of its own. -/
def IsArgument (text : String) : Prop :=
  IsCodeLine ("      " ++ text)

theorem isArgument_of_isClear {text : String} (h : IsClear text) : IsArgument text :=
  Dart.IsClear.isCodeLine (isClear_append.mpr ⟨by decide, h⟩)

theorem isArgument_headersArgument (h : c.Unbroken) : IsArgument c.headersArgument := by
  rw [headersArgument]
  cases hheaders : c.headers with
  | none =>
      have hpassed : IsArgument "headers: headers," := isArgument_of_isClear (by decide)
      exact hpassed
  | some headers =>
      have hliteral := Dart.isOneLine_literal .plain (.obj headers)
        (by simpa [Json.strings] using h headers hheaders)
      have hexpression : IsOneLine (headersExpression (.obj headers)) := by
        unfold headersExpression
        have hstart := Dart.isOneLine_append.mpr ⟨show IsOneLine "<String, dynamic>" by decide, hliteral⟩
        exact Dart.isOneLine_append.mpr ⟨hstart, by decide⟩
      refine ⟨?_, ?_⟩
      · have hstart : IsOneLine ("      " ++ ("headers: " ++ headersExpression (.obj headers))) :=
          Dart.isOneLine_append.mpr ⟨by decide, Dart.isOneLine_append.mpr ⟨by decide, hexpression⟩⟩
        have hline : "      " ++ s!"headers: {headersExpression (.obj headers)}," =
            "      " ++ ("headers: " ++ headersExpression (.obj headers)) ++ "," := by
          simp [toString, String.append_assoc]
        rw [hline]
        exact Dart.isOneLine_append.mpr ⟨hstart, by decide⟩
      · -- the line begins with the name of the argument, whatever the values are
        have hline : ("      " ++ s!"headers: {headersExpression (.obj headers)},").toList =
            "      ".toList ++ (['h'] ++
              ("eaders: " ++ headersExpression (.obj headers) ++ ",").toList) := by
          simp [toString]
        have hstart : Aggregate.StartsDark ['h'] := ⟨'h', [], rfl, by decide⟩
        have hblank : ∀ c ∈ "      ".toList, Text.isBlank c = true :=
          List.all_eq_true.mp (by decide)
        rw [Aggregate.firstDark_of_toList hblank hstart hline]
        decide

theorem isClear_bodyArguments : ∀ line ∈ c.bodyArguments, IsClear line := by
  rw [bodyArguments]
  cases c.bodyList <;> cases c.api.isMultipart <;> decide

theorem isClear_cacheArguments : ∀ line ∈ c.cacheArguments, IsClear line := by
  rw [cacheArguments]
  split
  · split
    · decide
    · rename_i d _
      have hcall := isClear_cacheStrategyCall d.strategy.name d.ttl d.keepExpired
      simp +decide [toString, isClear_append, hcall]
  · simp

theorem isArgument_httpArguments (h : c.Unbroken) {args : List String}
    (hargs : c.httpArguments = .ok args) : ∀ arg ∈ args, IsArgument arg := by
  rw [httpArguments] at hargs
  cases hendpoint : c.endpoint with
  | error failure =>
      rw [hendpoint] at hargs
      contradiction
  | ok endpoint =>
      rw [hendpoint] at hargs
      obtain rfl := Except.ok.inj hargs
      have hfirst := isClear_append.mpr ⟨c.isClear_endpoint hendpoint, show IsClear "," by decide⟩
      simp only [List.forall_mem_append, List.forall_mem_singleton]
      exact ⟨⟨⟨isArgument_of_isClear hfirst,
        fun line hline => isArgument_of_isClear (c.isClear_bodyArguments line hline)⟩,
        c.isArgument_headersArgument h⟩,
        fun line hline => isArgument_of_isClear (c.isClear_cacheArguments line hline)⟩

theorem isClear_listResult {keyword source : String} (hkeyword : IsClear keyword)
    (hsource : IsClear source) : ∀ line ∈ c.listResult keyword source, IsClear line := by
  simp +decide [listResult, toString, isClear_append, hkeyword, hsource, c.isClear_apiClass]

theorem isClear_futureResult : ∀ line ∈ c.futureResult, IsClear line := by
  rw [futureResult]
  cases c.api.returnData with
  | model =>
      dsimp only
      split
      · exact c.isClear_listResult (by decide) (by decide)
      · simp +decide [toString, isClear_append, c.isClear_apiClass]
  | _ =>
      dsimp only
      decide

theorem isClear_streamResult : ∀ line ∈ c.streamResult, IsClear line := by
  rw [streamResult]
  cases c.api.returnData with
  | model =>
      dsimp only
      split
      · exact c.isClear_listResult (by decide) (by decide)
      · simp +decide [toString, isClear_append, c.isClear_apiClass]
  | _ =>
      dsimp only
      decide

theorem isClear_call (method : Api.Method) : IsClear method.call := by
  cases method <;> decide

theorem isCodeLine_dataSourceBody (h : c.Unbroken) {lines : List String}
    (hlines : c.dataSourceBody = .ok lines) : ∀ line ∈ lines, IsCodeLine line := by
  rw [dataSourceBody] at hlines
  cases hargs : c.httpArguments with
  | error failure =>
      rw [hargs] at hlines
      contradiction
  | ok args =>
      rw [hargs] at hlines
      have hall := c.isArgument_httpArguments h hargs
      have hcall := isClear_call c.api.method
      have hcode : ∀ {lines : List String}, (∀ line ∈ lines, IsClear line) →
          ∀ line ∈ lines, IsCodeLine line :=
        fun hlines line hline => (hlines line hline).isCodeLine
      have hindented : ∀ {indent : String} {results : List String}, IsClear indent →
          (∀ line ∈ results, IsClear line) →
          ∀ line ∈ results.map (indent ++ ·), IsCodeLine line := by
        intro indent results hindent hresults line hline
        obtain ⟨result, hresult, rfl⟩ := List.mem_map.mp hline
        exact (isClear_append.mpr ⟨hindent, hresults result hresult⟩).isCodeLine
      have hargs' : ∀ line ∈ args.map ("      " ++ ·), IsCodeLine line := by
        intro line hline
        obtain ⟨arg, harg, rfl⟩ := List.mem_map.mp hline
        exact hall arg harg
      change (if c.api.isStream = true then _ else _) = Except.ok lines at hlines
      split at hlines
      · obtain rfl := Except.ok.inj hlines
        have hfirst : ∀ line ∈ [s!"    final responses = http.{c.api.method.call}("],
            IsClear line := by
          simp +decide [toString, isClear_append, hcall]
        simp only [List.forall_mem_append]
        exact ⟨⟨⟨⟨hcode hfirst, hargs'⟩, hcode (by decide)⟩,
          hindented (by decide) c.isClear_streamResult⟩, hcode (by decide)⟩
      · obtain rfl := Except.ok.inj hlines
        have hfirst : ∀ line ∈ [s!"    final response = await http.{c.api.method.call}("],
            IsClear line := by
          simp +decide [toString, isClear_append, hcall]
        simp only [List.forall_mem_append]
        exact ⟨⟨⟨hcode hfirst, hargs'⟩, hcode (by decide)⟩,
          hindented (by decide) c.isClear_futureResult⟩

/-! ### The repository -/

theorem isClear_repositoryBody : ∀ line ∈ c.repositoryBody, IsClear line := by
  have hvalue : IsClear c.entityValue :=
    isClear_ite (by decide) (isClear_ite (by decide) (by decide))
  have hcall : ∀ line ∈ c.repositoryCall, IsClear line := by
    have hforwarded := c.isClear_forwarded (show IsClear "        " by decide)
    rw [repositoryCall]
    split
    · simp only [List.forall_mem_append, List.forall_mem_cons]
      refine ⟨⟨?_, hforwarded⟩, ?_⟩ <;>
        simp +decide [toString, isClear_append, c.isClear_apiMethod, hvalue]
    · simp only [List.forall_mem_append, List.forall_mem_cons]
      refine ⟨⟨?_, hforwarded⟩, ?_⟩ <;>
        simp +decide [toString, isClear_append, c.isClear_apiMethod, hvalue]
  rw [repositoryBody]
  simp only [List.forall_mem_append]
  refine ⟨⟨by decide, hcall⟩, ?_⟩
  cases c.api.isStream <;> decide

end Context

end DartScaffold.Layer
