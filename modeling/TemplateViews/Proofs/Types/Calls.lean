import TemplateViews.Proofs.Types.Resolution

/-! How deep resolving a name calls itself. A call cuts its text and resolves the arguments by calls
of their own; with the calls recorded, each of them stands below a call with a longer text that nests
deeper, however the brackets of the text are mixed up. -/

namespace TemplateViews

/-- A call that resolves a text: the depths that cutting the text came to, and the calls for its
arguments. -/
inductive Call
  | made (text : List Char) (depths : List Int) (calls : List Call)

namespace Call

def text : Call → List Char
  | made text _ _ => text

mutual

/-- How deep calls nest below a call. -/
def height : Call → Nat
  | made _ _ [] => 0
  | made _ _ (call :: calls) => max call.height (highest calls) + 1

def highest : List Call → Nat
  | [] => 0
  | call :: calls => max call.height (highest calls)

end

/-- Every call is for a shorter text that nests less deep than that of its caller, and no text was
cut deeper than it nests. -/
inductive Descends : Call → Prop
  | made {text : List Char} {depths : List Int} {calls : List Call}
      (hdepths : ∀ depth ∈ depths, -1 ≤ depth ∧ depth ≤ nesting text)
      (hcalls : ∀ call ∈ calls, call.text.length < text.length ∧
        nesting call.text + 1 ≤ nesting text)
      (hinner : ∀ call ∈ calls, Descends call) : Descends (.made text depths calls)

end Call

/-- Cuts as for arguments and records each depth. -/
def splitRecorded (depth : Int) : List Char → Option (List (List Char)) × List Int
  | [] => (if depth = 0 then some [[]] else none, [depth])
  | c :: rest =>
    if c = ',' ∧ depth = 0 then
      ((splitRecorded depth rest).1.map ([] :: ·), depth :: (splitRecorded depth rest).2)
    else if bracketStep depth c < 0 then (none, [depth, bracketStep depth c])
    else
      ((splitRecorded (bracketStep depth c) rest).1.map (consPiece c),
        depth :: (splitRecorded (bracketStep depth c) rest).2)

/-- Cuts a name and records each depth. -/
def splitNameRecorded (cs : List Char) : Option (List Char × List (List Char)) × List Int :=
  match cs.dropWhile (· ≠ '<') with
  | [] => (if '>' ∈ cs then none else some (cs, []), [])
  | _ :: behind =>
    match dropClosing? behind with
    | none => (none, [])
    | some inner =>
      match splitRecorded 0 inner with
      | (none, depths) => (none, depths)
      | (some args, depths) =>
        (if (args.map trim).contains [] then none
          else some (trim (cs.takeWhile (· ≠ '<')), args.map trim), depths)

/-- The results of calls up to the first that failed, and the calls that were made. -/
def collectRecorded {ε α β : Type} : List (Except ε α × β) → Except ε (List α) × List β
  | [] => (.ok [], [])
  | (.error e, call) :: _ => (.error e, [call])
  | (.ok a, call) :: rest =>
    ((collectRecorded rest).1.map (a :: ·), call :: (collectRecorded rest).2)

theorem splitRecorded_fst (depth : Int) (cs : List Char) :
    (splitRecorded depth cs).1 = splitArguments depth cs := by
  induction cs generalizing depth with
  | nil => rfl
  | cons c cs ih =>
    rw [splitRecorded, splitArguments]
    split
    · rw [ih]
    · split
      · rfl
      · rw [ih]

theorem splitNameRecorded_fst (cs : List Char) : (splitNameRecorded cs).1 = splitName cs := by
  cases hdrop : cs.dropWhile (· ≠ '<') with
  | nil => simp only [splitNameRecorded, splitName, hdrop]
  | cons c behind =>
    cases hinner : dropClosing? behind with
    | none => simp only [splitNameRecorded, splitName, hdrop, hinner]
    | some inner =>
      simp only [splitNameRecorded, splitName, hdrop, hinner, ← splitRecorded_fst]
      rcases splitRecorded 0 inner with ⟨_ | args, depths⟩
      · rfl
      · simp only [List.contains_iff_mem]

namespace Catalogue

/-- Resolves a text without blanks at its ends, and records the calls. -/
def resolveRecorded (catalogue : Catalogue) (cs : List Char) : Except TypeError TypeTree × Call :=
  match _h : splitNameRecorded cs with
  | (none, depths) => (.error (.malformed (String.ofList cs)), .made cs depths [])
  | (some (base, args), depths) =>
    if isTypePath (dropColons base) then
      match catalogue.find? (String.ofList (dropColons base)) with
      | none => (.error (.notFound (String.ofList (dropColons base))), .made cs depths [])
      | some type =>
        if type.arity = args.length then
          let inner := collectRecorded (args.attach.map fun arg => catalogue.resolveRecorded arg.1)
          (inner.1.map (.node type), .made cs depths inner.2)
        else (.error (.arity type.path type.arity args.length), .made cs depths [])
    else (.error (.malformed (String.ofList cs)), .made cs depths [])
termination_by cs.length
decreasing_by
  exact length_lt_of_splitName ((splitNameRecorded_fst cs).symm.trans (congrArg Prod.fst _h)) arg.1 arg.2

/-- Resolves a text, and records the outermost call if there is one. -/
def resolveTextRecorded (catalogue : Catalogue) (text : String) :
    Except TypeError TypeTree × Option Call :=
  let cs := trim text.toList
  if cs = [] then (.error .empty, none)
  else if maxNesting < nesting cs then (.error .tooDeep, none)
  else ((catalogue.resolveRecorded cs).1, some (catalogue.resolveRecorded cs).2)

end Catalogue

section Nesting

variable {cs : List Char}

theorem nestingFrom_mono {depth deeper : Nat} (h : depth ≤ deeper) :
    nestingFrom depth cs ≤ nestingFrom deeper cs := by
  induction cs generalizing depth deeper with
  | nil => exact Nat.le_refl 0
  | cons c cs ih =>
    rw [nestingFrom, nestingFrom]
    split
    · have hrest := ih (Nat.add_le_add_right h 1)
      omega
    · split
      · exact ih (Nat.sub_le_sub_right h 1)
      · exact ih h

theorem nestingFrom_le_append (depth : Nat) (cs rest : List Char) :
    nestingFrom depth cs ≤ nestingFrom depth (cs ++ rest) := by
  induction cs generalizing depth with
  | nil => exact Nat.zero_le _
  | cons c cs ih =>
    rw [List.cons_append, nestingFrom, nestingFrom]
    split
    · have hrest := ih (depth + 1)
      omega
    · split
      · exact ih _
      · exact ih _

/-- What stands in front of a text can only bring it to a greater depth. -/
theorem nesting_le_append_left (depth : Nat) (front cs : List Char) :
    nesting cs ≤ nestingFrom depth (front ++ cs) := by
  induction front generalizing depth with
  | nil => exact nestingFrom_mono (Nat.zero_le depth)
  | cons c front ih =>
    rw [List.cons_append, nestingFrom]
    split
    · exact Nat.le_trans (ih _) (Nat.le_max_right _ _)
    · split
      · exact ih _
      · exact ih _

theorem nesting_le_infix (front cs rest : List Char) : nesting cs ≤ nesting (front ++ cs ++ rest) :=
  Nat.le_trans (nesting_le_append_left 0 front cs) (nestingFrom_le_append 0 (front ++ cs) rest)

theorem nesting_trim_le (cs : List Char) : nesting (trim cs) ≤ nesting cs := by
  obtain ⟨before, after, -, -, hcs⟩ := exists_blanks_trim cs
  have hinfix := nesting_le_infix before (trim cs) after
  rwa [← hcs] at hinfix

/-- Inside of brackets: the counter of the whole text stays ahead of the one of each piece by the
bracket around them, since cutting fails where a counter from zero would stop to follow. -/
theorem nesting_of_splitArguments {depth : Nat} {pieces : List (List Char)}
    (h : splitArguments depth cs = some pieces) :
    ∃ first rest, pieces = first :: rest ∧
      nestingFrom depth first + 1 ≤ max 1 (nestingFrom (depth + 1) cs) ∧
      ∀ piece ∈ rest, nesting piece + 1 ≤ max 1 (nestingFrom (depth + 1) cs) := by
  induction cs generalizing depth pieces with
  | nil =>
    simp only [splitArguments, Option.ite_none_right_eq_some, Option.some.injEq] at h
    exact ⟨[], [], h.2.symm, by simp [nestingFrom], by simp⟩
  | cons c cs ih =>
    rw [splitArguments] at h
    split at h
    · next hcut =>
      obtain ⟨hcomma, hzero⟩ := hcut
      obtain rfl : depth = 0 := by simpa using hzero
      obtain ⟨pieces, hpieces, rfl⟩ := Option.map_eq_some_iff.mp h
      obtain ⟨first, rest, rfl, hfirst, hrest⟩ := ih hpieces
      subst hcomma
      exact ⟨[], first :: rest, rfl, Nat.le_max_left _ _, List.forall_mem_cons.mpr ⟨hfirst, hrest⟩⟩
    · split at h
      · cases h
      · next hopen =>
        obtain ⟨pieces, hpieces, rfl⟩ := Option.map_eq_some_iff.mp h
        simp only [nestingFrom]
        unfold bracketStep at hpieces hopen
        by_cases hless : c = '<'
        · rw [if_pos hless] at hpieces
          have hdeeper : splitArguments (depth + 1 : Nat) cs = some pieces := mod_cast hpieces
          obtain ⟨first, rest, rfl, hfirst, hrest⟩ := ih hdeeper
          refine ⟨c :: first, rest, rfl, ?_, fun piece hpiece => ?_⟩
          · simp only [nestingFrom, if_pos hless]
            omega
          · have hlater := hrest piece hpiece
            rw [if_pos hless]
            omega
        · by_cases hgreater : c = '>'
          · rw [if_neg hless, if_pos hgreater] at hpieces hopen
            have hpred : ((depth - 1 : Nat) : Int) = depth - 1 := by omega
            obtain ⟨first, rest, rfl, hfirst, hrest⟩ := ih (hpred ▸ hpieces)
            have hback : depth - 1 + 1 = depth + 1 - 1 := by omega
            rw [hback] at hfirst hrest
            refine ⟨c :: first, rest, rfl, ?_, ?_⟩
            · simpa only [nestingFrom, if_neg hless, if_pos hgreater] using hfirst
            · simpa only [if_neg hless, if_pos hgreater] using hrest
          · rw [if_neg hless, if_neg hgreater] at hpieces
            obtain ⟨first, rest, rfl, hfirst, hrest⟩ := ih hpieces
            refine ⟨c :: first, rest, rfl, ?_, ?_⟩
            · simpa only [nestingFrom, if_neg hless, if_neg hgreater] using hfirst
            · simpa only [if_neg hless, if_neg hgreater] using hrest

/-- An argument nests less deep than the name it is an argument of. -/
theorem nesting_lt_of_splitName {base : List Char} {args : List (List Char)}
    (h : splitName cs = some (base, args)) : ∀ arg ∈ args, nesting arg + 1 ≤ nesting cs := by
  rcases splitName_eq_some h with ⟨-, rfl⟩ | ⟨front, inner, pieces, rfl, hpieces, -, rfl⟩
  · simp
  · have hbracket : max 1 (nestingFrom 1 inner) ≤ nesting (front ++ '<' :: (inner ++ ['>'])) := by
      have hfront := nesting_le_append_left 0 front ('<' :: (inner ++ ['>']))
      have hinner := nestingFrom_le_append 1 inner ['>']
      rw [nesting, nestingFrom, if_pos rfl, Nat.zero_add] at hfront
      rw [nesting]
      omega
    have hpieces : splitArguments (0 : Nat) inner = some pieces := hpieces
    obtain ⟨first, rest, rfl, hfirst, hrest⟩ := nesting_of_splitArguments hpieces
    refine List.forall_mem_map.mpr fun piece hpiece => ?_
    have hpiece : nesting piece + 1 ≤ max 1 (nestingFrom 1 inner) := by
      rcases List.mem_cons.mp hpiece with rfl | hmem
      · exact hfirst
      · exact hrest piece hmem
    have htrim := nesting_trim_le piece
    omega

/-- A step of the counter: what was recorded is at most one below a depth that the text has. -/
theorem depths_splitRecorded (depth : Nat) : ∀ recorded ∈ (splitRecorded depth cs).2,
    -1 ≤ recorded ∧ recorded ≤ max depth (nestingFrom depth cs) := by
  induction cs generalizing depth with
  | nil =>
    simp only [splitRecorded, List.forall_mem_singleton]
    omega
  | cons c cs ih =>
    rw [splitRecorded]
    simp only [nestingFrom]
    split
    · next hcut =>
      obtain ⟨rfl, -⟩ := hcut
      refine List.forall_mem_cons.mpr ⟨by omega, ?_⟩
      simpa using ih depth
    · unfold bracketStep
      by_cases hless : c = '<'
      · have hrest := ih (depth + 1)
        rw [if_pos hless, if_pos hless, if_neg (by omega)]
        refine List.forall_mem_cons.mpr ⟨by omega, fun recorded hrecorded => ?_⟩
        have := hrest recorded (mod_cast hrecorded)
        omega
      · by_cases hgreater : c = '>'
        · rw [if_neg hless, if_neg hless, if_pos hgreater, if_pos hgreater]
          split
          · refine List.forall_mem_cons.mpr ⟨by omega, List.forall_mem_singleton.mpr ?_⟩
            omega
          · next hopen =>
            have hpred : ((depth - 1 : Nat) : Int) = depth - 1 := by omega
            have hrest := ih (depth - 1)
            rw [hpred] at hrest
            refine List.forall_mem_cons.mpr ⟨by omega, fun recorded hrecorded => ?_⟩
            have := hrest recorded hrecorded
            omega
        · rw [if_neg hless, if_neg hless, if_neg hgreater, if_neg hgreater, if_neg (by omega)]
          exact List.forall_mem_cons.mpr ⟨by omega, ih depth⟩

theorem depths_splitNameRecorded (cs : List Char) : ∀ recorded ∈ (splitNameRecorded cs).2,
    -1 ≤ recorded ∧ recorded ≤ nesting cs := by
  cases hdrop : cs.dropWhile (· ≠ '<') with
  | nil => simp only [splitNameRecorded, hdrop, List.not_mem_nil, false_imp_iff, implies_true]
  | cons c behind =>
    cases hinner : dropClosing? behind with
    | none =>
      simp only [splitNameRecorded, hdrop, hinner, List.not_mem_nil, false_imp_iff, implies_true]
    | some inner =>
      have hrecorded : (splitNameRecorded cs).2 = (splitRecorded 0 inner).2 := by
        simp only [splitNameRecorded, hdrop, hinner]
        rcases splitRecorded 0 inner with ⟨_ | args, depths⟩ <;> rfl
      have hcs : cs = cs.takeWhile (· ≠ '<') ++ [c] ++ inner ++ ['>'] := by
        have hwhole := List.takeWhile_append_dropWhile (p := (· ≠ '<')) (l := cs)
        rw [hdrop, dropClosing?_eq_some_iff.mp hinner] at hwhole
        simpa using hwhole.symm
      have hdeep : nesting inner ≤ nesting cs := by
        rw [hcs]
        exact nesting_le_infix _ inner _
      intro recorded hmem
      rw [hrecorded] at hmem
      have hbounds := depths_splitRecorded 0 recorded hmem
      change _ ∧ _ ≤ max ((0 : Nat) : Int) (nesting inner) at hbounds
      omega

end Nesting

namespace Call

variable {text : List Char} {depths : List Int} {calls : List Call} {call : Call}

theorem highest_le {levels : Nat} (h : ∀ call ∈ calls, call.height ≤ levels) :
    highest calls ≤ levels := by
  induction calls with
  | nil => exact Nat.zero_le levels
  | cons call calls ih =>
    obtain ⟨hcall, hcalls⟩ := List.forall_mem_cons.mp h
    rw [highest]
    exact Nat.max_le.mpr ⟨hcall, ih hcalls⟩

theorem height_le {levels : Nat} (h : ∀ call ∈ calls, call.height + 1 ≤ levels) :
    (made text depths calls).height ≤ levels := by
  cases calls with
  | nil => exact Nat.zero_le levels
  | cons call calls =>
    have hpos : 1 ≤ levels := Nat.le_trans (Nat.le_add_left 1 _) (h call (by simp))
    have hrest : highest (call :: calls) ≤ levels - 1 :=
      highest_le fun call hcall => Nat.le_sub_of_add_le (h call hcall)
    rw [highest] at hrest
    rw [height]
    omega

/-- Every call below takes at least one level of the text. -/
theorem Descends.height_le (h : call.Descends) : call.height ≤ nesting call.text := by
  induction h with
  | @made text depths calls _ hcalls _ ih =>
    exact Call.height_le fun call hcall =>
      Nat.le_trans (Nat.succ_le_succ (ih call hcall)) (hcalls call hcall).2

end Call

section Collect

variable {ε α β : Type} {results : List (Except ε α × β)}

theorem mem_of_mem_collectRecorded {call : β} (h : call ∈ (collectRecorded results).2) :
    ∃ result ∈ results, result.2 = call := by
  induction results with
  | nil => cases h
  | cons result results ih =>
    obtain ⟨result | result, made⟩ := result
    · exact ⟨_, List.mem_cons_self, (List.mem_singleton.mp h).symm⟩
    · rcases List.mem_cons.mp h with rfl | hmem
      · exact ⟨_, List.mem_cons_self, rfl⟩
      · obtain ⟨later, hlater, heq⟩ := ih hmem
        exact ⟨later, List.mem_cons_of_mem _ hlater, heq⟩

end Collect

namespace Catalogue

variable {catalogue : Catalogue} {cs base : List Char} {args : List (List Char)} {depths : List Int}

theorem resolveRecorded_of_none (h : splitNameRecorded cs = (none, depths)) :
    catalogue.resolveRecorded cs = (.error (.malformed (String.ofList cs)), .made cs depths []) := by
  rw [resolveRecorded]
  split <;> simp_all

theorem resolveRecorded_of_some (h : splitNameRecorded cs = (some (base, args), depths)) :
    catalogue.resolveRecorded cs =
      if isTypePath (dropColons base) then
        match catalogue.find? (String.ofList (dropColons base)) with
        | none => (.error (.notFound (String.ofList (dropColons base))), .made cs depths [])
        | some type =>
          if type.arity = args.length then
            let inner := collectRecorded (args.map catalogue.resolveRecorded)
            (inner.1.map (.node type), .made cs depths inner.2)
          else (.error (.arity type.path type.arity args.length), .made cs depths [])
      else (.error (.malformed (String.ofList cs)), .made cs depths []) := by
  rw [resolveRecorded]
  split
  · next hnone => rw [hnone] at h; cases h
  · next hsome =>
    rw [hsome] at h
    obtain ⟨⟨rfl, rfl⟩, rfl⟩ := by simpa using h
    rw [List.attach_map_val]

theorem collectRecorded_fst
    (h : ∀ arg ∈ args, (catalogue.resolveRecorded arg).1 = catalogue.resolveName (.read arg)) :
    (collectRecorded (args.map catalogue.resolveRecorded)).1 =
      catalogue.resolveNames (args.map TypeName.read) := by
  induction args with
  | nil => rfl
  | cons arg args ih =>
    obtain ⟨harg, hargs⟩ := List.forall_mem_cons.mp h
    rw [List.map_cons, List.map_cons, resolveNames, ← harg]
    cases hresult : catalogue.resolveRecorded arg with
    | mk result call =>
      cases result with
      | error e => rfl
      | ok tree => rw [collectRecorded, ih hargs]

/-- Recording the calls changes no result. -/
theorem resolveRecorded_fst (catalogue : Catalogue) (cs : List Char) :
    (catalogue.resolveRecorded cs).1 = catalogue.resolveName (.read cs) := by
  -- The arguments are shorter than the text, so the induction is on its length.
  induction hlength : cs.length using Nat.strongRecOn generalizing cs with
  | ind length ih =>
    have hfst := splitNameRecorded_fst cs
    rcases hsplit : splitNameRecorded cs with ⟨_ | ⟨base, args⟩, depths⟩
    · rw [hsplit] at hfst
      rw [resolveRecorded_of_none hsplit, TypeName.read_of_splitName_none hfst.symm, resolveName]
    · rw [hsplit] at hfst
      rw [resolveRecorded_of_some hsplit, TypeName.read_of_splitName hfst.symm]
      have hargs : ∀ arg ∈ args, (catalogue.resolveRecorded arg).1 =
          catalogue.resolveName (.read arg) := fun arg harg =>
        ih _ (hlength ▸ length_lt_of_splitName hfst.symm arg harg) arg rfl
      split
      · rw [resolveName, List.length_map, ← collectRecorded_fst hargs]
        cases catalogue.find? (String.ofList (dropColons base)) with
        | none => rfl
        | some type =>
          dsimp only
          split <;> rfl
      · rw [resolveName]

theorem text_resolveRecorded (catalogue : Catalogue) (cs : List Char) :
    (catalogue.resolveRecorded cs).2.text = cs := by
  rcases hsplit : splitNameRecorded cs with ⟨_ | ⟨base, args⟩, depths⟩
  · rw [resolveRecorded_of_none hsplit, Call.text]
  · rw [resolveRecorded_of_some hsplit]
    repeat' split
    all_goals rfl

theorem descends_resolveRecorded (catalogue : Catalogue) (cs : List Char) :
    (catalogue.resolveRecorded cs).2.Descends := by
  induction hlength : cs.length using Nat.strongRecOn generalizing cs with
  | ind length ih =>
    have hdepths := depths_splitNameRecorded cs
    have hfst := splitNameRecorded_fst cs
    have hleaf {depths : List Int} (h : ∀ recorded ∈ depths, -1 ≤ recorded ∧ recorded ≤ nesting cs) :
        (Call.made cs depths []).Descends := .made h (by simp) (by simp)
    rcases hsplit : splitNameRecorded cs with ⟨_ | ⟨base, args⟩, depths⟩
    · rw [hsplit] at hdepths
      rw [resolveRecorded_of_none hsplit]
      exact hleaf hdepths
    · rw [hsplit] at hdepths hfst
      have hshorter := length_lt_of_splitName hfst.symm
      have hmade : ∀ call ∈ (collectRecorded (args.map catalogue.resolveRecorded)).2,
          ∃ arg ∈ args, (catalogue.resolveRecorded arg).2 = call := by
        intro call hcall
        obtain ⟨result, hresult, heq⟩ := mem_of_mem_collectRecorded hcall
        obtain ⟨arg, harg, rfl⟩ := List.mem_map.mp hresult
        exact ⟨arg, harg, heq⟩
      rw [resolveRecorded_of_some hsplit]
      split
      · split
        · exact hleaf hdepths
        · split
          · refine .made hdepths (fun call hcall => ?_) fun call hcall => ?_
            · obtain ⟨arg, harg, rfl⟩ := hmade call hcall
              rw [text_resolveRecorded]
              exact ⟨hshorter arg harg, nesting_lt_of_splitName hfst.symm arg harg⟩
            · obtain ⟨arg, harg, rfl⟩ := hmade call hcall
              exact ih _ (hlength ▸ hshorter arg harg) arg rfl
          · exact hleaf hdepths
      · exact hleaf hdepths

theorem resolve_eq_tooDeep_iff {text : String} {name : TypeName} (h : Spells text.toList name) :
    catalogue.resolve text = .error .tooDeep ↔ maxNesting < name.depth := by
  unfold resolve
  dsimp only
  rw [if_neg h.trim_ne_nil, h.trimmed.nests.nesting]
  split
  · next hdeep => simp [hdeep]
  · next hdeep =>
    have hname : catalogue.resolveName (.read (trim text.toList)) ≠ .error .tooDeep :=
      fun h => (resolveName_error h).2 rfl
    simp [hdeep, hname]

theorem resolveTextRecorded_fst (catalogue : Catalogue) (text : String) :
    (catalogue.resolveTextRecorded text).1 = catalogue.resolve text := by
  unfold resolveTextRecorded resolve
  dsimp only
  rw [← resolveRecorded_fst]
  split
  · rfl
  · split <;> rfl

theorem nesting_of_resolveTextRecorded {text : String} {call : Call}
    (h : (catalogue.resolveTextRecorded text).2 = some call) :
    call = (catalogue.resolveRecorded (trim text.toList)).2 ∧
      nesting (trim text.toList) ≤ maxNesting := by
  unfold resolveTextRecorded at h
  dsimp only at h
  split at h
  · cases h
  · split at h
    · cases h
    · next hdeep => exact ⟨(Option.some.inj h).symm, Nat.not_lt.mp hdeep⟩

/-- Calls go down to shorter texts that nest less deep, so no text makes more than `maxNesting` of
them at once below the first; what the grammar allows is turned away for its depth only if its
arguments really nest too deep. -/
theorem resolve_calls_bounded (catalogue : Catalogue) (text : String) :
    (catalogue.resolveTextRecorded text).1 = catalogue.resolve text ∧
    (∀ call, (catalogue.resolveTextRecorded text).2 = some call →
      call.text = trim text.toList ∧ call.Descends ∧ call.height ≤ maxNesting) ∧
    (∀ cs, (catalogue.resolveRecorded cs).1 = catalogue.resolveName (.read cs) ∧
      (catalogue.resolveRecorded cs).2.text = cs ∧ (catalogue.resolveRecorded cs).2.Descends) ∧
    ∀ name, Spells text.toList name → nesting text.toList = name.depth ∧
      (catalogue.resolve text = .error .tooDeep ↔ maxNesting < name.depth) := by
  refine ⟨resolveTextRecorded_fst catalogue text, fun call hcall => ?_, fun cs => ?_,
    fun name hspells => ⟨hspells.nests.nesting, resolve_eq_tooDeep_iff hspells⟩⟩
  · obtain ⟨rfl, hnesting⟩ := nesting_of_resolveTextRecorded hcall
    have hdescends := descends_resolveRecorded catalogue (trim text.toList)
    have hheight := hdescends.height_le
    rw [text_resolveRecorded] at hheight ⊢
    exact ⟨rfl, hdescends, Nat.le_trans hheight hnesting⟩
  · exact ⟨resolveRecorded_fst catalogue cs, text_resolveRecorded catalogue cs,
      descends_resolveRecorded catalogue cs⟩

end Catalogue

end TemplateViews
