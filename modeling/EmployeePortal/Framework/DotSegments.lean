import Mathlib.Data.List.DropRight

/-!
# Dot segments of a path

RFC 3986, 5.2.4: the loop over an input and an output buffer, the walk over the segments
of an absolute path it comes down to, and when a path that continues another one stays
below it.
-/

namespace EmployeePortal.Framework.DotSegments

/-! ## The two buffers -/

/-- The output without its last segment and the slash before it. -/
def dropSegment (output : List Char) : List Char := (output.rdropWhile (· ≠ '/')).dropLast

/-- The loop of 5.2.4. -/
def loop (output : List Char) : List Char → List Char
  | [] => output
  -- 2A: a relative prefix
  | '.' :: '.' :: '/' :: rest => loop output rest
  | '.' :: '/' :: rest => loop output rest
  -- 2B: this level
  | '/' :: '.' :: '/' :: rest => loop output ('/' :: rest)
  | ['/', '.'] => loop output ['/']
  -- 2C: one level up
  | '/' :: '.' :: '.' :: '/' :: rest => loop (dropSegment output) ('/' :: rest)
  | ['/', '.', '.'] => loop (dropSegment output) ['/']
  -- 2D: dots only
  | ['.'] => output
  | ['.', '.'] => output
  -- 2E: the next segment
  | c :: rest =>
      loop (output ++ c :: rest.takeWhile (· ≠ '/')) (rest.dropWhile (· ≠ '/'))
termination_by input => input.length
decreasing_by
  all_goals simp only [List.length_cons, List.length_nil]
  all_goals try omega
  exact Nat.lt_succ_of_le (List.dropWhile_suffix _).length_le

def removeDotSegments (path : List Char) : List Char := loop [] path

/-! ## Segments -/

abbrev Segment := List Char

def dot : Segment := ['.']

def dotDot : Segment := ['.', '.']

/-- The absolute path with these segments. -/
def absolute (segments : List Segment) : List Char := segments.flatMap ('/' :: ·)

@[simp] theorem absolute_nil : absolute [] = [] := rfl

@[simp] theorem absolute_cons (s : Segment) (rest : List Segment) :
    absolute (s :: rest) = '/' :: (s ++ absolute rest) := rfl

@[simp] theorem absolute_append (xs ys : List Segment) :
    absolute (xs ++ ys) = absolute xs ++ absolute ys := List.flatMap_append

/-- What no segment of a path has. -/
def Plain (segments : List Segment) : Prop := ∀ s ∈ segments, '/' ∉ s

theorem absolute_eq_intercalate (segments : List Segment) :
    absolute segments = ['/'].intercalate ([] :: segments) := by
  have hjoin : ∀ s : Segment, s ++ absolute segments = ['/'].intercalate (s :: segments) := by
    induction segments with
    | nil => simp
    | cons t rest ih =>
      intro s
      rw [absolute_cons, ih t]
      simp
  exact hjoin []

/-- The segments of the path that continues a slash. -/
theorem absolute_splitOn (path : List Char) : absolute (path.splitOn '/') = '/' :: path := by
  obtain ⟨s, rest, hcons⟩ := List.exists_cons_of_ne_nil (List.splitOn_ne_nil '/' path)
  have hpath : ['/'].intercalate (path.splitOn '/') = path := List.intercalate_splitOn '/'
  rw [hcons] at hpath
  rw [absolute_eq_intercalate, hcons, ← hpath]
  simp

theorem splitOn_absolute {segments : List Segment} (h : Plain segments) :
    (absolute segments).splitOn '/' = [] :: segments := by
  rw [absolute_eq_intercalate, List.splitOn_intercalate '/' ?_ (List.cons_ne_nil [] segments)]
  intro s hs
  rcases List.mem_cons.mp hs with rfl | hs
  · exact List.not_mem_nil
  · exact h s hs

theorem plain_splitOn (path : List Char) : Plain (path.splitOn '/') := by
  induction path with
  | nil =>
    rw [List.splitOn_nil]
    exact fun s hs => by simp [List.mem_singleton.mp hs]
  | cons c cs ih =>
    intro s hs
    rw [List.splitOn_cons_eq_if_modifyHead] at hs
    obtain ⟨t, rest, hsplit⟩ := List.exists_cons_of_ne_nil (List.splitOn_ne_nil '/' cs)
    rw [hsplit] at ih hs
    split at hs
    · rcases List.mem_cons.mp hs with rfl | hs
      · exact List.not_mem_nil
      · exact ih s hs
    · rename_i hslash
      rw [List.modifyHead_cons] at hs
      rcases List.mem_cons.mp hs with rfl | hs
      · rw [List.mem_cons, not_or]
        refine ⟨fun hc => hslash (by simp [← hc]), ih t List.mem_cons_self⟩
      · exact ih s (List.mem_cons_of_mem _ hs)

/-! ## The walk over the segments -/

/-- One segment of the walk. -/
def visit (output : List Segment) (s : Segment) : List Segment :=
  if s = dot then output else if s = dotDot then output.dropLast else output ++ [s]

/-- A path that ends in a dot segment ends in a slash. -/
def closed : List Segment → List Segment
  | [] => []
  | [s] => if s = dot ∨ s = dotDot then [s, []] else [s]
  | s :: t :: rest => s :: closed (t :: rest)

def resolve (output segments : List Segment) : List Segment :=
  (closed segments).foldl visit output

theorem resolve_cons (output : List Segment) (s t : Segment) (rest : List Segment) :
    resolve output (s :: t :: rest) = resolve (visit output s) (t :: rest) := rfl

theorem dropSegment_absolute {output : List Segment} (h : Plain output) :
    dropSegment (absolute output) = absolute output.dropLast := by
  rcases List.eq_nil_or_concat output with rfl | ⟨init, s, rfl⟩
  · rfl
  · have hs : ∀ c ∈ s, decide (c ≠ '/') = true := by
      intro c hc
      refine decide_eq_true fun hslash => ?_
      exact h s (by simp) (hslash ▸ hc)
    have hdrop : (absolute init ++ '/' :: s).rdropWhile (· ≠ '/') = absolute init ++ ['/'] := by
      rw [List.rdropWhile, List.reverse_append, List.reverse_cons, List.append_assoc,
        List.dropWhile_append_of_pos (fun c hc => hs c (List.mem_reverse.mp hc))]
      simp
    rw [List.concat_eq_append, absolute_append, absolute_cons, absolute_nil, List.append_nil,
      dropSegment, hdrop, List.dropLast_concat, List.dropLast_concat]

section Loop

variable {s : Segment} (hs : '/' ∉ s) (rest : List Segment)

include hs

theorem takeWhile_absolute : (s ++ absolute rest).takeWhile (· ≠ '/') = s := by
  have hplain : ∀ c ∈ s, decide (c ≠ '/') = true := fun c hc =>
    decide_eq_true fun hslash => hs (hslash ▸ hc)
  rw [List.takeWhile_append_of_pos hplain]
  cases rest with
  | nil => simp
  | cons t rest => simp

theorem dropWhile_absolute : (s ++ absolute rest).dropWhile (· ≠ '/') = absolute rest := by
  have hplain : ∀ c ∈ s, decide (c ≠ '/') = true := fun c hc =>
    decide_eq_true fun hslash => hs (hslash ▸ hc)
  rw [List.dropWhile_append_of_pos hplain]
  cases rest with
  | nil => simp
  | cons t rest => simp

/-- A segment that is not made of dots moves to the output. -/
theorem loop_segment {output : List Char} (hdot : s ≠ dot) (hdotDot : s ≠ dotDot) :
    loop output (absolute (s :: rest)) = loop (output ++ '/' :: s) (absolute rest) := by
  have htake := takeWhile_absolute hs rest
  have hdrop := dropWhile_absolute hs rest
  rw [absolute_cons, loop.eq_def]
  split
  case h_1 h => cases h
  case h_2 h => cases h
  case h_3 h => cases h
  case h_4 h =>
    rw [(List.cons.inj h).2] at htake
    exact absurd htake.symm hdot
  case h_5 h =>
    rw [(List.cons.inj h).2] at htake
    exact absurd htake.symm hdot
  case h_6 h =>
    rw [(List.cons.inj h).2] at htake
    exact absurd htake.symm hdotDot
  case h_7 h =>
    rw [(List.cons.inj h).2] at htake
    exact absurd htake.symm hdotDot
  case h_8 h => cases h
  case h_9 h => cases h
  case h_10 h =>
    obtain ⟨rfl, rfl⟩ := List.cons.inj h
    rw [htake, hdrop]

end Loop

theorem loop_dot (output : List Char) (t : Segment) (rest : List Segment) :
    loop output (absolute (dot :: t :: rest)) = loop output (absolute (t :: rest)) := by
  simp only [absolute_cons, dot, List.cons_append, List.nil_append]
  rw [loop]

theorem loop_dotDot (output : List Char) (t : Segment) (rest : List Segment) :
    loop output (absolute (dotDot :: t :: rest)) =
      loop (dropSegment output) (absolute (t :: rest)) := by
  simp only [absolute_cons, dotDot, List.cons_append, List.nil_append]
  rw [loop]

theorem loop_slash (output : List Char) : loop output ['/'] = output ++ ['/'] := by
  simp [loop]

theorem plain_visit {output : List Segment} {s : Segment} (h : Plain output) (hs : '/' ∉ s) :
    Plain (visit output s) := by
  unfold visit
  split
  · exact h
  · split
    · exact fun t ht => h t (List.dropLast_subset output ht)
    · intro t ht
      rcases List.mem_append.mp ht with ht | ht
      · exact h t ht
      · rwa [List.mem_singleton.mp ht]

/-- The loop on an absolute path is the walk over its segments. -/
theorem loop_absolute {output segments : List Segment} (hout : Plain output)
    (hseg : Plain segments) :
    loop (absolute output) (absolute segments) = absolute (resolve output segments) := by
  induction segments generalizing output with
  | nil => rw [absolute_nil, loop]; rfl
  | cons s rest ih =>
    have hs : '/' ∉ s := hseg s List.mem_cons_self
    have hrest : Plain rest := fun t ht => hseg t (List.mem_cons_of_mem _ ht)
    cases rest with
    | nil =>
      by_cases hdot : s = dot
      · subst hdot
        have hend : loop (absolute output) ['/', '.'] = absolute output ++ ['/'] := by
          rw [loop, loop_slash]
        simpa [resolve, closed, visit, dot, dotDot] using hend
      · by_cases hdotDot : s = dotDot
        · subst hdotDot
          have hend : loop (absolute output) ['/', '.', '.'] =
              absolute output.dropLast ++ ['/'] := by
            rw [loop, loop_slash, dropSegment_absolute hout]
          simpa [resolve, closed, visit, dot, dotDot] using hend
        · rw [loop_segment hs [] hdot hdotDot]
          simp [resolve, closed, visit, hdot, hdotDot, loop]
    | cons t rest =>
      rw [resolve_cons, ← ih (plain_visit hout hs) hrest]
      unfold visit
      split
      · rename_i hdot
        rw [hdot, loop_dot]
      · split
        · rename_i hdotDot
          rw [hdotDot, loop_dotDot, dropSegment_absolute hout]
        · rename_i hdot hdotDot
          rw [loop_segment hs _ hdot hdotDot]
          simp

/-- What is left of an absolute path. -/
theorem removeDotSegments_absolute {segments : List Segment} (h : Plain segments) :
    removeDotSegments (absolute segments) = absolute (resolve [] segments) :=
  @loop_absolute [] segments (fun _ hs => absurd hs List.not_mem_nil) h

/-! ## A path that continues another one -/

/-- No segment is made of dots. -/
def DotFree (segments : List Segment) : Prop := ∀ s ∈ segments, s ≠ dot ∧ s ≠ dotDot

theorem visit_of_dotFree {output : List Segment} {s : Segment} (h : s ≠ dot ∧ s ≠ dotDot) :
    visit output s = output ++ [s] := by
  rw [visit, if_neg h.1, if_neg h.2]

theorem foldl_visit_of_dotFree {output segments : List Segment} (h : DotFree segments) :
    segments.foldl visit output = output ++ segments := by
  induction segments generalizing output with
  | nil => exact (List.append_nil _).symm
  | cons s rest ih =>
    rw [List.foldl_cons, visit_of_dotFree (h s List.mem_cons_self),
      ih fun t ht => h t (List.mem_cons_of_mem _ ht)]
    simp

theorem dotFree_visit {output : List Segment} {s : Segment} (h : DotFree output) :
    DotFree (visit output s) := by
  unfold visit
  split
  · exact h
  · split
    · exact fun t ht => h t (List.dropLast_subset output ht)
    · rename_i hdot hdotDot
      intro t ht
      rcases List.mem_append.mp ht with ht | ht
      · exact h t ht
      · rw [List.mem_singleton.mp ht]
        exact ⟨hdot, hdotDot⟩

theorem dotFree_resolve {output : List Segment} (h : DotFree output) (segments : List Segment) :
    DotFree (resolve output segments) :=
  List.foldlRecOn (closed segments) visit h fun _ hb _ _ => dotFree_visit hb

theorem plain_closed {segments : List Segment} (h : Plain segments) : Plain (closed segments) := by
  fun_induction closed segments with
  | case1 => exact h
  | case2 s hs =>
    intro t ht
    rcases List.mem_pair.mp ht with rfl | rfl
    · exact h t List.mem_cons_self
    · exact List.not_mem_nil
  | case3 s hs => exact h
  | case4 s t rest ih =>
    intro u hu
    rcases List.mem_cons.mp hu with rfl | hu
    · exact h u List.mem_cons_self
    · exact ih (fun v hv => h v (List.mem_cons_of_mem _ hv)) u hu

theorem plain_resolve {output segments : List Segment} (hout : Plain output)
    (hseg : Plain segments) : Plain (resolve output segments) :=
  List.foldlRecOn (closed segments) visit hout fun _ hb s hs =>
    plain_visit hb (plain_closed hseg s hs)

theorem closed_append (xs : List Segment) {ys : List Segment} (hne : ys ≠ []) :
    closed (xs ++ ys) = xs ++ closed ys := by
  induction xs with
  | nil => rfl
  | cons x xs ih =>
    obtain ⟨t, rest, hcons⟩ := List.exists_cons_of_ne_nil
      (List.append_ne_nil_of_right_ne_nil xs hne)
    rw [List.cons_append, hcons, closed, ← hcons, ih, List.cons_append]

/-- The segments before come first. -/
theorem resolve_append {base segments : List Segment} (hbase : DotFree base)
    (hne : segments ≠ []) : resolve [] (base ++ segments) = resolve base segments := by
  rw [resolve, closed_append base hne, List.foldl_append, foldl_visit_of_dotFree hbase,
    List.nil_append, resolve]

/-- One segment of a relative path: the levels gone up so far, and the segments gone
down since. -/
def climb (place : ℕ × List Segment) (s : Segment) : ℕ × List Segment :=
  if s = dot then place
  else if s = dotDot then
    if place.2 = [] then (place.1 + 1, []) else (place.1, place.2.dropLast)
  else (place.1, place.2 ++ [s])

/-- Where a relative path leads. -/
def relative (segments : List Segment) : ℕ × List Segment := (closed segments).foldl climb (0, [])

/-- The place as seen from the root. -/
def under (base : List Segment) (place : ℕ × List Segment) : List Segment :=
  base.take (base.length - place.1) ++ place.2

theorem visit_under (base : List Segment) (place : ℕ × List Segment) (s : Segment) :
    visit (under base place) s = under base (climb place s) := by
  obtain ⟨up, down⟩ := place
  unfold visit climb
  split
  · rfl
  · split
    · split
      · rename_i hnil
        obtain rfl : down = [] := hnil
        have hlevel : min (min (base.length - up) base.length - 1) (base.length - up) =
            base.length - (up + 1) := by omega
        rw [under, under, List.append_nil, List.append_nil, List.dropLast_eq_take,
          List.take_take, List.length_take, hlevel]
      · rename_i hne
        exact List.dropLast_append_of_ne_nil hne
    · exact List.append_assoc _ _ _

/-- A path resolves to what its base keeps and the segments it goes down. -/
theorem resolve_eq_under (base segments : List Segment) :
    resolve base segments = under base (relative segments) := by
  have hstart : base = under base (0, []) := by simp [under]
  conv_lhs => rw [resolve, hstart]
  exact List.foldl_hom (under base) fun place s => visit_under base place s

/-- The levels the path goes up it goes down again, and then on. -/
def Returns (base : List Segment) (place : ℕ × List Segment) : Prop :=
  base.rtake place.1 <+: place.2 ∧ base.rtake place.1 ≠ place.2

instance (base : List Segment) (place : ℕ × List Segment) : Decidable (Returns base place) :=
  inferInstanceAs (Decidable (_ ∧ _))

theorem returns_iff {base : List Segment} {place : ℕ × List Segment} :
    Returns base place ↔ ∃ s rest, under base place = base ++ s :: rest := by
  have hsplit : base = base.take (base.length - place.1) ++ base.rtake place.1 :=
    (List.take_append_drop _ base).symm
  constructor
  · rintro ⟨⟨tail, htail⟩, hne⟩
    cases tail with
    | nil => exact absurd ((List.append_nil _).symm.trans htail) hne
    | cons s rest =>
      refine ⟨s, rest, ?_⟩
      conv_rhs => rw [hsplit]
      rw [under, ← htail, List.append_assoc]
  · rintro ⟨s, rest, hunder⟩
    rw [under] at hunder
    conv_rhs at hunder => rw [hsplit, List.append_assoc]
    have hdown := List.append_cancel_left hunder
    refine ⟨⟨s :: rest, hdown.symm⟩, fun heq => ?_⟩
    have hlen := congrArg List.length (heq.trans hdown)
    simp at hlen

theorem prefix_absolute_iff {base segments : List Segment} (hbase : Plain base)
    (hseg : Plain segments) :
    absolute (base ++ [[]]) <+: absolute segments ↔ ∃ s rest, segments = base ++ s :: rest := by
  induction base generalizing segments with
  | nil =>
    cases segments with
    | nil => simp
    | cons s rest => simp
  | cons b base ih =>
    have hbase' : Plain base := fun t ht => hbase t (List.mem_cons_of_mem _ ht)
    cases segments with
    | nil => simp
    | cons t segments =>
      have hseg' : Plain segments := fun u hu => hseg u (List.mem_cons_of_mem _ hu)
      have hb := hbase b List.mem_cons_self
      have ht := hseg t List.mem_cons_self
      rw [List.cons_append, absolute_cons, absolute_cons, List.cons_prefix_cons]
      constructor
      · rintro ⟨-, tail, htail⟩
        have hjoin : b ++ absolute (base ++ [tail]) = t ++ absolute segments := by
          simpa using htail
        obtain rfl : b = t := by
          have htake := congrArg (List.takeWhile (· ≠ '/')) hjoin
          rwa [takeWhile_absolute hb, takeWhile_absolute ht] at htake
        have hprefix : absolute (base ++ [[]]) <+: absolute segments :=
          ⟨tail, by simpa using List.append_cancel_left hjoin⟩
        obtain ⟨s, rest, rfl⟩ := (ih hbase' hseg').mp hprefix
        exact ⟨s, rest, rfl⟩
      · rintro ⟨s, rest, heq⟩
        obtain ⟨rfl, rfl⟩ := List.cons.inj heq
        exact ⟨rfl, (List.prefix_append_right_inj t).mpr ((ih hbase' hseg').mpr ⟨s, rest, rfl⟩)⟩

theorem prefix_removeDotSegments_iff {base : List Segment} (hplain : Plain base)
    (hfree : DotFree base) (name : List Char) :
    absolute (base ++ [[]]) <+: removeDotSegments (absolute (base ++ [[]]) ++ name) ↔
      Returns base (relative (name.splitOn '/')) := by
  have hne := List.splitOn_ne_nil '/' name
  have hjoin : absolute (base ++ [[]]) ++ name = absolute (base ++ name.splitOn '/') := by
    rw [absolute_append base (name.splitOn '/'), absolute_splitOn]
    simp
  have hboth : Plain (base ++ name.splitOn '/') := fun s hs =>
    (List.mem_append.mp hs).elim (hplain s) (plain_splitOn name s)
  rw [hjoin, removeDotSegments_absolute hboth, resolve_append hfree hne,
    prefix_absolute_iff hplain (plain_resolve hplain (plain_splitOn name)), resolve_eq_under,
    returns_iff]

/-! ## Base paths -/

/-- The segments above the last slash. -/
def directories (path : List Char) : List Segment := (path.splitOn '/').tail.dropLast

/-- A path without dot segments that ends in a slash. -/
structure BasePath (path : List Char) : Prop where
  plain : Plain (directories path)
  dotFree : DotFree (directories path)
  eq : path = absolute (directories path ++ [[]])

/-- What dot segments are removed from is a base path, once it ends in a slash. -/
theorem BasePath.of_removeDotSegments {path : List Char}
    (hslash : (removeDotSegments ('/' :: path)).getLast? = some '/') :
    BasePath (removeDotSegments ('/' :: path)) := by
  have hplain := plain_splitOn path
  have hresolved : Plain (resolve [] (path.splitOn '/')) :=
    plain_resolve (fun _ hs => absurd hs List.not_mem_nil) hplain
  have hfree : DotFree (resolve [] (path.splitOn '/')) :=
    dotFree_resolve (fun _ hs => absurd hs List.not_mem_nil) _
  rw [← absolute_splitOn, removeDotSegments_absolute hplain] at hslash ⊢
  rcases List.eq_nil_or_concat (resolve [] (path.splitOn '/')) with hnil | ⟨base, s, hbase⟩
  · rw [hnil] at hslash
    cases hslash
  rw [List.concat_eq_append] at hbase
  rw [hbase] at hslash hresolved hfree ⊢
  have hempty : s = [] := by
    rcases List.eq_nil_or_concat s with hs | ⟨init, c, rfl⟩
    · exact hs
    · rw [List.concat_eq_append] at hslash hresolved
      have hlast : absolute (base ++ [init ++ [c]]) = (absolute base ++ '/' :: init) ++ [c] := by
        simp
      rw [hlast, List.getLast?_concat] at hslash
      have hc : c = '/' := Option.some.inj hslash
      exact absurd (by simp [hc]) (hresolved (init ++ [c]) (by simp))
  rw [hempty] at hresolved ⊢
  have hdirectories : directories (absolute (base ++ [[]])) = base := by
    rw [directories, splitOn_absolute hresolved, List.tail_cons, List.dropLast_concat]
  refine ⟨?_, ?_, ?_⟩ <;> rw [hdirectories]
  · exact fun t ht => hresolved t (List.mem_append_left _ ht)
  · exact fun t ht => hfree t (List.mem_append_left _ ht)

/-- **Staying below a base path.** A name put behind a base path leads to a path that
begins with it if and only if the name returns. -/
theorem BasePath.prefix_iff {path : List Char} (hpath : BasePath path) (name : List Char) :
    path <+: removeDotSegments (path ++ name) ↔
      Returns (directories path) (relative (name.splitOn '/')) := by
  have hiff := prefix_removeDotSegments_iff hpath.plain hpath.dotFree name
  rwa [← hpath.eq] at hiff

end EmployeePortal.Framework.DotSegments
