/-! The fixed part of emitted programs: retries, the state of a run, references and conditions. -/

namespace Flowgraph.Program

def preamble : List String :=
  ["",
   "import asyncio",
   "import inspect",
   "import re",
   "",
   "_REFERENCE = re.compile(r\"\\\x7b\\\x7b\\s*([^\x7b\x7d]+?)\\s*\\\x7d\\\x7d\")",
   "",
   "",
   "async def _with_policy(call, timeout_ms, retries):",
   "    \"\"\"Run ``call`` under a timeout, retrying with exponential backoff.\"\"\"",
   "    attempt = 0",
   "    while True:",
   "        attempt += 1",
   "        try:",
   "            return await asyncio.wait_for(call(), timeout_ms / 1000.0)",
   "        except asyncio.CancelledError:",
   "            raise",
   "        except Exception:",
   "            if attempt > retries:",
   "                raise",
   "            await asyncio.sleep(min(RETRY_BASE_DELAY * 2 ** (attempt - 1), RETRY_MAX_DELAY))",
   "",
   "",
   "class _RunState:",
   "    \"\"\"Node status, outputs and variables for one run.\"\"\"",
   "",
   "    def __init__(self, invoke, variables):",
   "        self._invoke = invoke",
   "        self.inputs = dict(variables or \x7b\x7d)",
   "        self.variables = dict(DEFAULT_VARIABLES)",
   "        self.variables.update(self.inputs)",
   "        self.outputs = \x7b\x7d",
   "        self.status = \x7b\x7d",
   "        self.errors = \x7b\x7d",
   "        self.aborted = None",
   "",
   "    def succeeded(self, node_id):",
   "        return self.status.get(node_id) == 'success'",
   "",
   "    def failed(self, node_id):",
   "        return self.status.get(node_id) == 'failed'",
   "",
   "    def lookup(self, path):",
   "        parts = [part for part in path.strip().split('.') if part]",
   "        if not parts:",
   "            return None",
   "        head, rest = parts[0], parts[1:]",
   "        if head == 'nodes':",
   "            current = self.outputs",
   "        elif head == 'vars':",
   "            current = self.variables",
   "        elif head == 'inputs':",
   "            current = self.inputs",
   "        else:",
   "            current = self.variables.get(head)",
   "        for part in rest:",
   "            if isinstance(current, dict):",
   "                current = current.get(part)",
   "            elif isinstance(current, (list, tuple)) and part.lstrip('-').isdigit():",
   "                index = int(part)",
   "                current = current[index] if -len(current) <= index < len(current) else None",
   "            else:",
   "                return None",
   "        return current",
   "",
   "    def resolve(self, value):",
   "        if isinstance(value, dict):",
   "            return \x7bkey: self.resolve(item) for key, item in value.items()\x7d",
   "        if isinstance(value, list):",
   "            return [self.resolve(item) for item in value]",
   "        if not isinstance(value, str) or '\x7b\x7b' not in value:",
   "            return value",
   "        whole = _REFERENCE.fullmatch(value.strip())",
   "        if whole:",
   "            return self.lookup(whole.group(1))",
   "",
   "        def interpolate(match):",
   "            resolved = self.lookup(match.group(1))",
   "            return '' if resolved is None else str(resolved)",
   "",
   "        return _REFERENCE.sub(interpolate, value)",
   "",
   "    def check(self, expression):",
   "        if not expression or not expression.strip():",
   "            return True",
   "        bound = \x7b\x7d",
   "",
   "        def bind(match):",
   "            key = '__ref%d' % len(bound)",
   "            bound[key] = self.lookup(match.group(1))",
   "            return key",
   "",
   "        source = _REFERENCE.sub(bind, expression)",
   "        names = dict(self.variables)",
   "        names.update(vars=self.variables, nodes=self.outputs, inputs=self.inputs)",
   "        names.update(bound)",
   "        names.update(_SAFE_FUNCTIONS)",
   "        try:",
   "            return bool(eval(source, \x7b'__builtins__': \x7b\x7d\x7d, names))",
   "        except Exception:",
   "            return False",
   "",
   "    def skip(self, node_id):",
   "        self.status[node_id] = 'skipped'",
   "",
   "    def record(self, node_id, result):",
   "        if result is None:",
   "            result = \x7b\x7d",
   "        elif not isinstance(result, dict):",
   "            result = \x7b'result': result\x7d",
   "        self.outputs[node_id] = result",
   "        self.status[node_id] = 'success'",
   "",
   "    def fail(self, node_id, error, contained):",
   "        self.status[node_id] = 'failed'",
   "        self.errors[node_id] = str(error) or type(error).__name__",
   "        if not contained and self.aborted is None:",
   "            self.aborted = \"Node '%s' failed: %s\" % (node_id, self.errors[node_id])",
   "",
   "    async def invoke(self, call, node_id, inputs):",
   "        result = self._invoke(call, node_id, inputs)",
   "        if inspect.isawaitable(result):",
   "            result = await result",
   "        return result",
   "",
   "    def result(self):",
   "        failed = [node_id for node_id in NODE_IDS if self.status.get(node_id) == 'failed']",
   "        if self.aborted:",
   "            error = self.aborted",
   "        elif failed:",
   "            error = 'Nodes failed: ' + ', '.join(failed)",
   "        else:",
   "            error = None",
   "        return \x7b",
   "            'workflowId': WORKFLOW_ID,",
   "            'status': 'failed' if failed else 'success',",
   "            'error': error,",
   "            'nodes': \x7b",
   "                node_id: \x7b",
   "                    'status': self.status.get(node_id, 'skipped'),",
   "                    'outputs': self.outputs.get(node_id),",
   "                    'error': self.errors.get(node_id),",
   "                \x7d",
   "                for node_id in NODE_IDS",
   "            \x7d,",
   "        \x7d"]

end Flowgraph.Program
