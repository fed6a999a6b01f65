/-!
# Shader Bodies

The kernels in WGSL, line by line.

Each body is one entry point. The functions it calls are blocks of their own,
since only some of the entry points need them. The names `WG_X` and `WG_Y`
stand for the shape of the workgroup and are defined in front of a body when
a module is put together.

## Main definitions

* `Shader.Body.params`, `Shader.Body.boundHelpers`,
  `Shader.Body.treeReduce`: The shared blocks.
* One block for each kernel, under the name of the kernel.
-/

namespace BoundedSimplex

namespace Shader

namespace Body

/-- Access to the scalars, packed four to a vector. -/
def params : List String :=
  ["struct Params \x7b",
    "    v: array<vec4<u32>, 2>,",
    "\x7d",
    "",
    "fn param(i: u32) -> u32 \x7b",
    "    return params.v[i / 4u][i % 4u];",
    "\x7d"]

/-- The tests on the mask of bounds. -/
def boundHelpers : List String :=
  ["fn has_lower(v: u32) -> bool \x7b",
    "    return (bounded[v] & 1u) != 0u;",
    "\x7d",
    "",
    "fn has_upper(v: u32) -> bool \x7b",
    "    return (bounded[v] & 2u) != 0u;",
    "\x7d"]

/-- The sum of a workgroup as a binary tree. -/
def treeReduce : List String :=
  ["var<workgroup> shared_sums: array<f32, WG_X>;",
    "",
    "fn tree_reduce(lid: u32, value: f32) -> f32 \x7b",
    "    shared_sums[lid] = value;",
    "    workgroupBarrier();",
    "    for (var stride = WG_X / 2u; stride > 0u; stride = stride / 2u) \x7b",
    "        if (lid < stride) \x7b",
    "            shared_sums[lid] = shared_sums[lid] + shared_sums[lid + stride];",
    "        \x7d",
    "        workgroupBarrier();",
    "    \x7d",
    "    return shared_sums[0];",
    "\x7d"]

/-- The scan for a broken basic variable. -/
def checkBounds : List String :=
  ["@compute @workgroup_size(WG_X, WG_Y)",
    "fn check_bounds(@builtin(global_invocation_id) gid: vec3<u32>) \x7b",
    "    let num_vars = param(0u);",
    "    let v = param(1u) + gid.x;",
    "    let eps = bitcast<f32>(param(2u));",
    "    if (v >= num_vars || flags[v] != 1u) \x7b",
    "        return;",
    "    \x7d",
    "    let a = assigns[v];",
    "    if (has_lower(v) && abs(a - lower[v]) < eps) \x7b",
    "        return;",
    "    \x7d",
    "    if (has_upper(v) && abs(a - upper[v]) < eps) \x7b",
    "        return;",
    "    \x7d",
    "    if ((has_lower(v) && a < lower[v]) || (has_upper(v) && a > upper[v])) \x7b",
    "        atomicMin(&output[0], v);",
    "    \x7d",
    "\x7d"]

/-- The scan for a variable that can correct a broken one. -/
def findSuitable : List String :=
  ["@compute @workgroup_size(WG_X, WG_Y)",
    "fn find_suitable(@builtin(global_invocation_id) gid: vec3<u32>) \x7b",
    "    let num_vars = param(0u);",
    "    let num_cols = param(1u);",
    "    let broken = param(2u);",
    "    let v = param(3u) + gid.x;",
    "    if (v >= num_vars || flags[v] != 0u) \x7b",
    "        return;",
    "    \x7d",
    "    let increase = has_lower(broken) && assigns[broken] < lower[broken];",
    "    let coeff = tableau[var_to_tableau[broken] * num_cols + var_to_tableau[v]];",
    "    let a = assigns[v];",
    "    let inc = !has_upper(v) || a < upper[v];",
    "    let dec = !has_lower(v) || a > lower[v];",
    "    var ok = false;",
    "    if (increase) \x7b",
    "        ok = (inc && coeff > 0.0) || (dec && coeff < 0.0);",
    "    \x7d else \x7b",
    "        ok = (inc && coeff < 0.0) || (dec && coeff > 0.0);",
    "    \x7d",
    "    if (ok) \x7b",
    "        atomicMin(&output[0], v);",
    "    \x7d",
    "\x7d"]

/-- The correction, by a single work item. -/
def findSuitableComplete : List String :=
  ["@compute @workgroup_size(WG_X, WG_Y)",
    "fn find_suitable_complete(@builtin(global_invocation_id) gid: vec3<u32>) \x7b",
    "    if (gid.x != 0u || gid.y != 0u) \x7b",
    "        return;",
    "    \x7d",
    "    let num_cols = param(0u);",
    "    let broken = param(1u);",
    "    let suitable = param(2u);",
    "    let a = assigns[broken];",
    "    let increase = has_lower(broken) && a < lower[broken];",
    "    var delta = 0.0;",
    "    if (increase) \x7b",
    "        delta = lower[broken] - a;",
    "    \x7d else if (has_upper(broken)) \x7b",
    "        delta = a - upper[broken];",
    "    \x7d",
    "    let coeff = tableau[var_to_tableau[broken] * num_cols + var_to_tableau[suitable]];",
    "    let theta = delta / coeff;",
    "    if (increase) \x7b",
    "        assigns[suitable] = assigns[suitable] + theta;",
    "        assigns[broken] = a + delta;",
    "    \x7d else \x7b",
    "        assigns[suitable] = assigns[suitable] - theta;",
    "        assigns[broken] = a - delta;",
    "    \x7d",
    "\x7d"]

/-- The exchange away from the row and the column. -/
def pivotUpdateInner : List String :=
  ["@compute @workgroup_size(WG_X, WG_Y)",
    "fn pivot_update_inner(@builtin(global_invocation_id) gid: vec3<u32>) \x7b",
    "    let alpha = bitcast<f32>(param(0u));",
    "    let row = param(1u);",
    "    let col = param(2u);",
    "    let num_rows = param(3u);",
    "    let num_cols = param(4u);",
    "    let c = gid.x;",
    "    let r = gid.y;",
    "    if (r >= num_rows || c >= num_cols || r == row || c == col) \x7b",
    "        return;",
    "    \x7d",
    "    let beta = tableau[row * num_cols + c];",
    "    let gamma = tableau[r * num_cols + col];",
    "    let i = r * num_cols + c;",
    "    tableau[i] = tableau[i] - (beta * gamma) / alpha;",
    "\x7d"]

/-- The exchange along the row. -/
def pivotUpdateRow : List String :=
  ["@compute @workgroup_size(WG_X, WG_Y)",
    "fn pivot_update_row(@builtin(global_invocation_id) gid: vec3<u32>) \x7b",
    "    let alpha = bitcast<f32>(param(0u));",
    "    let row = param(1u);",
    "    let col = param(2u);",
    "    let num_cols = param(3u);",
    "    let c = gid.x;",
    "    if (c >= num_cols || c == col) \x7b",
    "        return;",
    "    \x7d",
    "    let i = row * num_cols + c;",
    "    tableau[i] = -tableau[i] / alpha;",
    "\x7d"]

/-- The exchange down the column. -/
def pivotUpdateColumn : List String :=
  ["@compute @workgroup_size(WG_X, WG_Y)",
    "fn pivot_update_column(@builtin(global_invocation_id) gid: vec3<u32>) \x7b",
    "    let alpha = bitcast<f32>(param(0u));",
    "    let row = param(1u);",
    "    let col = param(2u);",
    "    let num_rows = param(3u);",
    "    let num_cols = param(4u);",
    "    let r = gid.x;",
    "    if (r >= num_rows || r == row) \x7b",
    "        return;",
    "    \x7d",
    "    let i = r * num_cols + col;",
    "    tableau[i] = tableau[i] / alpha;",
    "\x7d"]

/-- The partial sums of a row. -/
def updateAssignment : List String :=
  ["@compute @workgroup_size(WG_X, WG_Y)",
    "fn update_assignment(",
    "    @builtin(global_invocation_id) gid: vec3<u32>,",
    "    @builtin(local_invocation_id) lid: vec3<u32>,",
    "    @builtin(workgroup_id) wid: vec3<u32>,",
    ") \x7b",
    "    let num_cols = param(0u);",
    "    let row = param(1u);",
    "    let c = gid.x;",
    "    var value = 0.0;",
    "    if (c < num_cols) \x7b",
    "        value = assigns[col_to_var[c]] * tableau[row * num_cols + c];",
    "    \x7d",
    "    let sum = tree_reduce(lid.x, value);",
    "    if (lid.x == 0u) \x7b",
    "        partials_out[wid.x] = sum;",
    "    \x7d",
    "\x7d"]

/-- The partial sums of partial sums. -/
def reducePartialSums : List String :=
  ["@compute @workgroup_size(WG_X, WG_Y)",
    "fn reduce_partial_sums(",
    "    @builtin(global_invocation_id) gid: vec3<u32>,",
    "    @builtin(local_invocation_id) lid: vec3<u32>,",
    "    @builtin(workgroup_id) wid: vec3<u32>,",
    ") \x7b",
    "    let count = param(0u);",
    "    var value = 0.0;",
    "    if (gid.x < count) \x7b",
    "        value = partials_in[gid.x];",
    "    \x7d",
    "    let sum = tree_reduce(lid.x, value);",
    "    if (lid.x == 0u) \x7b",
    "        partials_out[wid.x] = sum;",
    "    \x7d",
    "\x7d"]

/-- The last sum, written as a value. -/
def updateAssignmentComplete : List String :=
  ["@compute @workgroup_size(WG_X, WG_Y)",
    "fn update_assignment_complete(@builtin(local_invocation_id) lid: vec3<u32>) \x7b",
    "    let count = param(0u);",
    "    let var_index = param(1u);",
    "    var value = 0.0;",
    "    if (lid.x < count) \x7b",
    "        value = partials_in[lid.x];",
    "    \x7d",
    "    let sum = tree_reduce(lid.x, value);",
    "    if (lid.x == 0u) \x7b",
    "        assigns[var_index] = sum;",
    "    \x7d",
    "\x7d"]

end Body

end Shader

end BoundedSimplex
