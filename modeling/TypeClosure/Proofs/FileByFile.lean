import TypeClosure.Proofs.Presentation

/-!
The listing of many files is made of the listings of each. What is written of a file does not depend
on the other files, and a file that cannot be read leaves nothing behind but the failure in the end.
-/

namespace TypeClosure.Command

open FileTree Report

variable {t t' : FileTree} {a : NamesArguments} {words paths : List String}

/-- The listing of the file that a path names, if it can be read. -/
def listing? (t : FileTree) (path : String) : Option Listing :=
  (t.readSource path).toOption.map Source.listing

theorem listing?_eq_none {path : String} :
    listing? t path = none ↔ ∃ f, t.readSource path = .error f := by
  cases read : t.readSource path with
  | error f => simp [listing?, read, Except.toOption]
  | ok s => simp [listing?, read, Except.toOption]

/-- What is written of the file that a path names, if it is listed alone. -/
def textAlone (t : FileTree) (colours : Bool) (path : String) : String :=
  match listing? t path with
  | some l => render colours (namesLines [l])
  | none => ""

theorem readable_listFiles (t : FileTree) (paths : List String) :
    readable (listFiles t paths) = paths.filterMap (listing? t) := by
  rw [readable, listFiles, List.filterMap_map]
  apply List.filterMap_congr
  intro path _
  cases read : t.readSource path with
  | error f => simp [listing?, read, Except.toOption, Except.map]
  | ok s => simp [listing?, read, Except.toOption, Except.map]

theorem isEmpty_unreadable_listFiles (t : FileTree) (paths : List String) :
    (unreadable (listFiles t paths)).isEmpty = true ↔ ∀ path ∈ paths, listing? t path ≠ none := by
  rw [List.isEmpty_iff, unreadable, List.filterMap_eq_nil_iff, listFiles, List.forall_mem_map]
  refine forall₂_congr fun path _ => ?_
  cases read : t.readSource path with
  | error f => simp [listing?, read, Except.toOption, Except.map]
  | ok s => simp [listing?, read, Except.toOption, Except.map]

theorem render_namesLines (colours : Bool) (ls : List Listing) :
    render colours (namesLines ls) =
      String.join (ls.map fun l => render colours (namesLines [l])) := by
  rw [← String.toList_inj, String.toList_join, List.flatMap_map]
  simp [render, namesLines, List.flatMap_assoc]

theorem join_textAlone (t : FileTree) (colours : Bool) (paths : List String) :
    String.join (paths.map (textAlone t colours)) =
      render colours (namesLines (paths.filterMap (listing? t))) := by
  rw [render_namesLines]
  induction paths with
  | nil => rfl
  | cons path rest ih =>
      rw [List.map_cons, String.join_cons, ih, List.filterMap_cons, textAlone]
      cases listing? t path with
      | none => simp
      | some l => simp

/-- Files that cannot be read may be left out. -/
theorem filterMap_listing?_filter {keep : String → Bool}
    (kept : ∀ path ∈ paths, listing? t path ≠ none → keep path = true)
    (same : ∀ path ∈ paths, keep path = true → t'.readSource path = t.readSource path) :
    (paths.filter keep).filterMap (listing? t') = paths.filterMap (listing? t) := by
  rw [List.filterMap_filter]
  apply List.filterMap_congr
  intro path member
  cases keeps : keep path with
  | true => rw [if_pos rfl, listing?, same path member keeps, listing?]
  | false =>
      by_contra listed
      rw [if_neg Bool.false_ne_true] at listed
      rw [kept path member (Ne.symm listed)] at keeps
      contradiction

theorem runNames_of_expands (expands : Glob.allSourcePaths t a.patterns = .ok paths)
    (nonempty : paths ≠ []) :
    (runNames t a).output =
        (if a.json then .json (.array ((paths.filterMap (listing? t)).map Listing.toJson))
        else .lines (namesLines (paths.filterMap (listing? t)))) ∧
      (runNames t a).ending = endingOf (unreadable (listFiles t paths)).isEmpty := by
  unfold runNames
  split
  · next f error => simp [error] at expands
  · next none =>
      rw [none] at expands
      exact absurd (Except.ok.inj expands).symm nonempty
  · next found _ ok =>
      cases Except.ok.inj (ok.symm.trans expands)
      simp only [readable_listFiles, and_self]

theorem endingOf_eq_success {complete : Bool} : endingOf complete = .success ↔ complete = true := by
  cases complete <;> simp [endingOf]

theorem endingOf_eq_failure {complete : Bool} :
    endingOf complete = .failure ↔ ¬ complete = true := by
  cases complete <;> simp [endingOf]

theorem output_respond_names (line : Request.read words = .ok (.perform (.names a)))
    (expands : Glob.allSourcePaths t a.patterns = .ok paths) (nonempty : paths ≠ [])
    (colours : Bool) :
    ((respond t words).exit colours).output =
      if a.json then
        (Json.Value.array ((paths.filterMap (listing? t)).map Listing.toJson)).text ++ "\n"
      else render colours (namesLines (paths.filterMap (listing? t))) := by
  have response : respond t words = .performed (runNames t a) := by
    rw [respond, line]
    rfl
  rw [response, (Response.exit_performed _ _).1, (runNames_of_expands expands nonempty).1]
  split
  · rfl
  · rfl

/-- Files are listed one by one. What `names` writes is what it writes of each file that can be read,
in their order, as text or as the elements of an array. It fails if and only if some file cannot be
read; then any command line that stands for the same files without such ones writes the same. What is
listed of a file are its declarations, each with the mentions that it has by itself. -/
theorem names_file_by_file (line : Request.read words = .ok (.perform (.names a)))
    (expands : Glob.allSourcePaths t a.patterns = .ok paths) (nonempty : paths ≠ []) :
    (a.json = false → ∀ colours, ((respond t words).exit colours).output =
      String.join (paths.map (textAlone t colours))) ∧
    (a.json = true → ∀ colours, ((respond t words).exit colours).output =
      (Json.Value.array ((paths.filterMap (listing? t)).map Listing.toJson)).text ++ "\n") ∧
    (∃ o, respond t words = .performed o ∧
      (o.ending = .failure ↔ ∃ path ∈ paths, ∃ f, t.readSource path = .error f) ∧
      (o.ending = .success ↔ ∀ path ∈ paths, ∃ s, t.readSource path = .ok s)) ∧
    (∀ (t' : FileTree) (words' : List String) (a' : NamesArguments) (keep : String → Bool),
      Request.read words' = .ok (.perform (.names a')) → a'.json = a.json →
      Glob.allSourcePaths t' a'.patterns = .ok (paths.filter keep) → paths.filter keep ≠ [] →
      (∀ path ∈ paths, (∃ s, t.readSource path = .ok s) → keep path = true) →
      (∀ path ∈ paths, keep path = true → t'.readSource path = t.readSource path) →
      ∀ colours, ((respond t' words').exit colours).output =
        ((respond t words).exit colours).output) ∧
    ∀ path ∈ paths, ∀ s, t.readSource path = .ok s →
      listing? t path = some s.listing ∧ s.listing.file = path ∧
      List.Forall₂ (fun e d => d.name = e.name ∧ d.kind = e.kind ∧ d.line = e.line ∧
        d.mentions = e.decl.mentionsUnder {}) s.contents.table.toList s.listing.declarations := by
  have output := output_respond_names line expands nonempty
  have readable (path : String) :
      (∃ s, t.readSource path = .ok s) ↔ listing? t path ≠ none := by
    rw [Ne, listing?_eq_none]
    cases t.readSource path with
    | error f => simp
    | ok s => simp
  refine ⟨?_, ?_, ?_, ?_, ?_⟩
  · intro text colours
    rw [output, text, join_textAlone]
    rfl
  · intro json colours
    rw [output, json]
    rfl
  · refine ⟨runNames t a, by rw [respond, line]; rfl, ?_, ?_⟩
    · rw [(runNames_of_expands expands nonempty).2, endingOf_eq_failure,
        isEmpty_unreadable_listFiles]
      simp only [Ne, not_forall, Classical.not_not, listing?_eq_none, exists_prop]
    · rw [(runNames_of_expands expands nonempty).2, endingOf_eq_success,
        isEmpty_unreadable_listFiles]
      simp only [readable]
  · intro t' words' a' keep line' json expands' nonempty' kept same colours
    rw [output, output_respond_names line' expands' nonempty', json, filterMap_listing?_filter
      (fun path member listed => kept path member ((readable path).mpr listed)) same]
  · intro path member s read
    refine ⟨by rw [listing?, read]; rfl, path_of_readSource read, ?_⟩
    rw [Source.listing, List.forall₂_map_right_iff, List.forall₂_same]
    exact fun e _ => ⟨rfl, rfl, rfl, rfl⟩

/-- A directory in which two files of four can be read. -/
def mixed : FileTree where
  current := ["w"]
  entries := [(["w"], .directory), (["w", "a.ts"], .file (some "interface A extends B { c: C }")),
    (["w", "b.ts"], .file (some "interface")), (["w", "c.ts"], .file none),
    (["w", "d.ts"], .file (some "enum B { X }\nexport { A } from './a';"))]

/-- What can be listed of it. -/
def mixedListings : List Listing :=
  [⟨"a.ts", [⟨"A", .interface, 1, ["A", "A", "B", "C"]⟩], []⟩,
    ⟨"d.ts", [⟨"B", .enumeration, 1, ["B", "B"]⟩], [⟨"./a", [⟨"A", "A"⟩]⟩]⟩]

theorem unreadable_mixed : ∀ path ∈ ["b.ts", "c.ts"], ∃ f, mixed.readSource path = .error f := by
  simp only [← listing?_eq_none]
  decide +kernel

theorem kept_mixed : ∀ path ∈ ["a.ts", "b.ts", "c.ts", "d.ts"],
    (∃ s, mixed.readSource path = .ok s) → decide (path ∉ ["b.ts", "c.ts"]) = true := by
  rintro path - ⟨s, read⟩
  refine decide_eq_true fun member => ?_
  obtain ⟨f, error⟩ := unreadable_mixed path member
  exact nomatch read.symm.trans error

theorem names_file_by_file_mixed :
    let all := respond mixed ["names", "a.ts", "b.ts", "c.ts", "d.ts"]
    let allJson := respond mixed ["names", "a.ts", "b.ts", "c.ts", "d.ts", "--json"]
    ((all.exit false).output = ((respond mixed ["names", "a.ts", "d.ts"]).exit false).output ∧
      (all.exit false).output =
        "a.ts:\n     1  interface A: A, A, B, C\nd.ts:\n     1  enum B: B, B\n" ++
          "  from ./a: A\n" ∧
      ∃ o, all = .performed o ∧ o.ending = .failure) ∧
    (allJson.exit false).output =
        ((respond mixed ["names", "a.ts", "d.ts", "--json"]).exit false).output ∧
      (allJson.exit false).output =
        (Json.Value.array (mixedListings.map Listing.toJson)).text ++ "\n" ∧
      ∃ o, allJson = .performed o ∧ o.ending = .failure := by
  intro all allJson
  have expands : Glob.allSourcePaths mixed ["a.ts", "b.ts", "c.ts", "d.ts"] =
      .ok ["a.ts", "b.ts", "c.ts", "d.ts"] := by
    decide +kernel
  have fewer : Glob.allSourcePaths mixed ["a.ts", "d.ts"] = .ok ["a.ts", "d.ts"] := by
    decide +kernel
  have listed : ["a.ts", "b.ts", "c.ts", "d.ts"].filterMap (listing? mixed) = mixedListings := by
    decide +kernel
  have line (json : Bool) :
      Request.read (["names", "a.ts", "b.ts", "c.ts", "d.ts"] ++ if json then ["--json"] else []) =
        .ok (.perform (.names { patterns := ["a.ts", "b.ts", "c.ts", "d.ts"], json })) := by
    cases json <;> decide +kernel
  have fewerLine (json : Bool) :
      Request.read (["names", "a.ts", "d.ts"] ++ if json then ["--json"] else []) =
        .ok (.perform (.names { patterns := ["a.ts", "d.ts"], json })) := by
    cases json <;> decide +kernel
  have run (json : Bool) := names_file_by_file (line json) expands (by decide)
  have same (json : Bool) :
      ((respond mixed (["names", "a.ts", "d.ts"] ++ if json then ["--json"] else [])).exit
          false).output =
        ((respond mixed (["names", "a.ts", "b.ts", "c.ts", "d.ts"] ++
          if json then ["--json"] else [])).exit false).output := by
    obtain ⟨_, _, _, leftOut, _⟩ := run json
    exact leftOut mixed _ _ (fun path => path ∉ ["b.ts", "c.ts"]) (fewerLine json) rfl fewer
      (by decide) kept_mixed (fun _ _ _ => rfl) false
  have fails (json : Bool) : ∃ o, respond mixed (["names", "a.ts", "b.ts", "c.ts", "d.ts"] ++
      if json then ["--json"] else []) = .performed o ∧ o.ending = .failure := by
    obtain ⟨_, _, ⟨o, performed, failing, _⟩, _⟩ := run json
    exact ⟨o, performed, failing.mpr ⟨"c.ts", by decide, unreadable_mixed "c.ts" (by decide)⟩⟩
  obtain ⟨text, _⟩ := run false
  obtain ⟨_, values, _⟩ := run true
  refine ⟨⟨(same false).symm, (text rfl false).trans (by decide +kernel), fails false⟩,
    (same true).symm, ?_, fails true⟩
  rw [← listed]
  exact values rfl false

end TypeClosure.Command
