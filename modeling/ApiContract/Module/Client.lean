import ApiContract.Module.Basic

/-!
# The module of the client

A fixed module through which all generated functions send their requests. Only the base URL in it
depends on the description.
-/

namespace ApiContract.Module

/-- The lines after the base URL: request options, responses, and one function for each method. -/
def clientLines : List String := [
  "",
  "export type RequestOptions = \x7b",
  "  params?: Record<string, string>;",
  "  headers?: Record<string, string>;",
  "  body?: any;",
  "\x7d;",
  "",
  "export type ApiResponse<T> = \x7b",
  "  data: T | null;",
  "  status: number;",
  "  headers: Headers;",
  "\x7d;",
  "",
  "function buildUrl(endpoint: string, params?: Record<string, string>): string \x7b",
  "  const origin = typeof window === \"undefined\" ? \"http://localhost\" : window.location.origin;",
  "  const url = new URL(API_BASE_URL + endpoint, origin);",
  "  if (params) \x7b",
  "    for (const [key, value] of Object.entries(params)) \x7b",
  "      if (value !== undefined) \x7b",
  "        url.searchParams.append(key, value);",
  "      \x7d",
  "    \x7d",
  "  \x7d",
  "  return url.toString();",
  "\x7d",
  "",
  "async function request<T>(",
  "  method: string,",
  "  endpoint: string,",
  "  options: RequestOptions,",
  "): Promise<ApiResponse<T>> \x7b",
  "  const headers: Record<string, string> = \x7b",
  "    \"Content-Type\": \"application/json\",",
  "    ...options.headers,",
  "  \x7d;",
  "",
  "  const init: RequestInit = \x7b method, headers \x7d;",
  "  if (options.body !== undefined) \x7b",
  "    init.body =",
  "      headers[\"Content-Type\"] === \"application/json\"",
  "        ? JSON.stringify(options.body)",
  "        : options.body;",
  "  \x7d",
  "",
  "  const response = await fetch(buildUrl(endpoint, options.params), init);",
  "  const result: ApiResponse<T> = \x7b",
  "    data: null,",
  "    status: response.status,",
  "    headers: response.headers,",
  "  \x7d;",
  "",
  "  if (response.status !== 204) \x7b",
  "    const contentType = response.headers.get(\"Content-Type\") ?? \"\";",
  "    result.data = contentType.includes(\"application/json\")",
  "      ? await response.json()",
  "      : ((await response.blob()) as unknown as T);",
  "  \x7d",
  "",
  "  return result;",
  "\x7d",
  "",
  "function get<T>(endpoint: string, options: RequestOptions): Promise<ApiResponse<T>> \x7b",
  "  return request<T>(\"GET\", endpoint, options);",
  "\x7d",
  "",
  "function post<T>(endpoint: string, body: any, options: RequestOptions): Promise<ApiResponse<T>> \x7b",
  "  return request<T>(\"POST\", endpoint, \x7b ...options, body \x7d);",
  "\x7d",
  "",
  "function put<T>(endpoint: string, body: any, options: RequestOptions): Promise<ApiResponse<T>> \x7b",
  "  return request<T>(\"PUT\", endpoint, \x7b ...options, body \x7d);",
  "\x7d",
  "",
  "function patch<T>(endpoint: string, body: any, options: RequestOptions): Promise<ApiResponse<T>> \x7b",
  "  return request<T>(\"PATCH\", endpoint, \x7b ...options, body \x7d);",
  "\x7d",
  "",
  "function del<T>(endpoint: string, options: RequestOptions): Promise<ApiResponse<T>> \x7b",
  "  return request<T>(\"DELETE\", endpoint, options);",
  "\x7d",
  "",
  "export default \x7b get, post, put, patch, del \x7d;"]

/-- The text of the client module. -/
def client (baseUrl : String) : List Char :=
  heading ++ "const API_BASE_URL = ".toList ++ scriptLiteral baseUrl ++ ";\n".toList ++
    clientLines.flatMap fun line => line.toList ++ ['\n']

end ApiContract.Module
