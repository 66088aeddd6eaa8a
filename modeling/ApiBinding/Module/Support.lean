import ApiBinding.Method

/-!
The text of the support classes. It is fixed; a module declares each class that its methods rely on
once, and a class after the one it extends.
-/

namespace ApiBinding.SupportClass

def exceptionLines : List String :=
  ["class ApiException(Exception):",
    "    def __init__(",
    "        self,",
    "        message: str,",
    "        status_code: int,",
    "        response: Optional[str],",
    "        headers: Mapping[str, str],",
    "        result: Any = None,",
    "    ) -> None:",
    "        super().__init__(message)",
    "        self.message = message",
    "        self.status_code = status_code",
    "        self.response = response",
    "        self.headers = headers",
    "        self.result = result",
    "",
    "    def __str__(self) -> str:",
    "        return f'\x7bself.message\x7d\\n\\nStatus: \x7bself.status_code\x7d"
      ++ "\\nResponse: \\n\x7bself.response or \"\"\x7d'"]

def responseLines : List String :=
  ["class ApiResponse(Generic[T]):",
    "    def __init__(self, status_code: int, headers: Mapping[str, str], result: T) -> None:",
    "        self.status_code = status_code",
    "        self.headers = headers",
    "        self.result = result"]

/-- The object that holds a result which still reads from the open response. -/
def disposableResponseLines : List String :=
  ["class DisposableApiResponse(ApiResponse[T]):",
    "    \"\"\"A response whose result still reads from the open HTTP response.\"\"\"",
    "",
    "    def __init__(",
    "        self,",
    "        status_code: int,",
    "        headers: Mapping[str, str],",
    "        result: T,",
    "        response: httpx.Response,",
    "    ) -> None:",
    "        super().__init__(status_code, headers, result)",
    "        self._response = response",
    "",
    "    async def aclose(self) -> None:",
    "        await self._response.aclose()",
    "",
    "    async def __aenter__(self) -> DisposableApiResponse[T]:",
    "        return self",
    "",
    "    async def __aexit__(self, *args: Any) -> None:",
    "        await self.aclose()"]

def arrayStreamLines : List String :=
  ["class JsonArrayStream(Generic[T]):",
    "    \"\"\"Decodes the items of a JSON array response body one at a time.\"\"\"",
    "",
    "    def __init__(self, response: httpx.Response) -> None:",
    "        self._response = response",
    "        self._chunks = response.aiter_text()",
    "        self._decoder = json.JSONDecoder()",
    "        self._buffer = ''",
    "        self._position = 0",
    "        self._exhausted = False",
    "        self._started = False",
    "        self._done = False",
    "",
    "    async def prime(self) -> bool:",
    "        \"\"\"Consume the opening bracket. Returns False for an empty or null body.\"\"\"",
    "        first = await self._peek()",
    "        if first in ('', 'n'):",
    "            return False",
    "        if first != '[':",
    "            raise ValueError(f'Expected a JSON array, got \x7bfirst!r\x7d')",
    "        self._position += 1",
    "        return True",
    "",
    "    def __aiter__(self) -> JsonArrayStream[T]:",
    "        return self",
    "",
    "    async def __anext__(self) -> T:",
    "        if self._done:",
    "            raise StopAsyncIteration",
    "        char = await self._peek()",
    "        if char == ']':",
    "            self._done = True",
    "            await self.aclose()",
    "            raise StopAsyncIteration",
    "        if self._started:",
    "            if char != ',':",
    "                raise ValueError(f'Expected , or ] in JSON array, got \x7bchar!r\x7d')",
    "            self._position += 1",
    "            char = await self._peek()",
    "        if char == '':",
    "            raise ValueError('Unexpected end of JSON array')",
    "        while True:",
    "            try:",
    "                item, end = self._decoder.raw_decode(self._buffer, self._position)",
    "            except json.JSONDecodeError:",
    "                if not await self._fill():",
    "                    raise",
    "                continue",
    "            # A value ending at the buffer end may continue in the next chunk.",
    "            if end == len(self._buffer) and await self._fill():",
    "                continue",
    "            self._position = end",
    "            self._started = True",
    "            return cast(T, item)",
    "",
    "    async def aclose(self) -> None:",
    "        self._done = True",
    "        await self._response.aclose()",
    "",
    "    async def _peek(self) -> str:",
    "        while True:",
    "            while self._position < len(self._buffer)"
      ++ " and self._buffer[self._position].isspace():",
    "                self._position += 1",
    "            if self._position < len(self._buffer):",
    "                return self._buffer[self._position]",
    "            if not await self._fill():",
    "                return ''",
    "",
    "    async def _fill(self) -> bool:",
    "        if self._exhausted:",
    "            return False",
    "        try:",
    "            chunk = await self._chunks.__anext__()",
    "        except StopAsyncIteration:",
    "            self._exhausted = True",
    "            return False",
    "        self._buffer = self._buffer[self._position:] + chunk",
    "        self._position = 0",
    "        return True"]

/-- The body that writes items as a JSON array. -/
def arrayStreamContentLines : List String :=
  ["class JsonArrayStreamContent(Generic[T]):",
    "    \"\"\"Serializes the items of an async iterable as a JSON array request body.\"\"\"",
    "",
    "    def __init__(self, items: AsyncIterable[T]) -> None:",
    "        self._items = items",
    "",
    "    async def __aiter__(self) -> AsyncIterator[bytes]:",
    "        yield b'['",
    "        first = True",
    "        async for item in self._items:",
    "            if not first:",
    "                yield b','",
    "            yield json.dumps(item).encode('utf-8')",
    "            first = False",
    "        yield b']'"]

def lines : SupportClass → List String
  | .exception => exceptionLines
  | .response => responseLines
  | .disposableResponse => disposableResponseLines
  | .arrayStream => arrayStreamLines
  | .arrayStreamContent => arrayStreamContentLines

def base? : SupportClass → Option SupportClass
  | .disposableResponse => some .response
  | _ => none

def isRequired (required : List SupportClass) (support : SupportClass) : Bool :=
  required.contains support || required.any fun other => decide (other.base? = some support)

/-- The lines of the required support classes and their bases, each once and in their order. -/
def linesOf (required : List SupportClass) : List String :=
  (all.filter (isRequired required)).flatMap fun support => support.lines ++ ["", ""]

end ApiBinding.SupportClass
